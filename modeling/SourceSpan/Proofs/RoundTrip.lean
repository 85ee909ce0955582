import SourceSpan.Proofs.Literal

/-!
# Round trips

The span of a value that is recorded at a stretch of a source text starts where the stretch starts.
It stops where the stretch stops exactly if the rules measure the end of the value right. They do for
all brackets, names and plain tokens. For literals with line endings and for calls without any token
behind their name they follow fixed conventions, and `Node.Aligned` says when these fit the text.
Operators that stand on another line than the end of their operand make the span longer, by as much
as they are wide.
-/

namespace SourceSpan

open Layout Text

variable {src : List Char} {i j : Nat}

/-! ### Own stops -/

/-- The text of a plain literal is measured right: it is a single line, or it opens in the first
column. -/
def Measured (info : Metadata) (value : String) : Prop :=
  breakCount value.toList = 0 ∨ info.column = some 1

/-- What the rule of a node that ends at offset `j` takes for granted about its end is so. The column
of a text behind a line ending is counted from the column of its literal, so the literal has to open
in the first one. A call without a closing token and arguments has no width, and some literals
without an embedded expression are measured as if they were single lines of a fixed form. -/
def Node.Aligned (src : List Char) (j : Nat) : Node → Prop
  | .atom info value =>
    breakCount value.toList = 0 ∨
      info.column = some 1 ∧ (info.delimiter = none → ∃ p : Position, p.IsAt src j)
  | .string info value => info.delimiter.any isTriple = true ∨ Measured info value
  | .call info name _ => info.hasClosing = true ∨ name = ""
  | .interpolation info pieces =>
    isTriple (delimiterOf info) = false ∧ RunsOn pieces ∨
      hasEmbedded pieces = true ∧ info.column = some 1
  | .interpolatedAtom _ bodyInfo pieces =>
    hasEmbedded pieces = true ∧ (RunsOn pieces ∨ bodyInfo.column = some 1)
  | .sigil info letter _ pieces modifiers =>
    if hasEmbedded pieces then
      info.delimiter.any isTriple = false ∧ RunsOn pieces ∨ info.column = some 1
    else if info.delimiter.any isTriple then modifiers = ""
    else RunsOn pieces ∧ letter.length = 1
  | _ => True

/-- What the rule of a value that ends at offset `j` takes for granted about its end is so. -/
def Value.Aligned (src : List Char) (j : Nat) : Value → Prop
  | .node n => n.Aligned src j
  | _ => True

theorem Metadata.column_eq_one_iff {info : Metadata} {p : Position}
    (hplace : info.place? = some p) : info.column = some 1 ↔ p.column = 1 := by
  have hp : info.column = some (p.column : Int) := (coordinates_of_place? hplace).2
  rw [hp, Option.some.injEq]
  omega

/-- A stop that is found is compared with the end by its offset. -/
theorem offset?_iff {stop : Position} {k : Nat} (h : stop.offset? src = some k) :
    stop.offset? src = some j ↔ k = j := by
  rw [h, Option.some.injEq]

theorem offset?_surplus_iff {info : Metadata} {start stop : Position} {value : String}
    (hplace : info.place? = some start)
    (hstop : stop.offset? src = some (j + surplus start value)) :
    stop.offset? src = some j ↔ Measured info value := by
  rw [offset?_iff hstop, Measured, Metadata.column_eq_one_iff hplace, ← surplus_eq_zero_iff]
  omega

theorem offset?_textStop_of_unbroken {start : Position} {value : String}
    (opening closing : List Char) (hat : start.IsAt src i)
    (hread : Reads src i j (opening ++ value.toList ++ closing))
    (hbreaks : breakCount value.toList = 0) :
    (textStop start value opening.length closing.length).offset? src = some j := by
  rw [textStop_of_unbroken hbreaks, Position.offset?_advance hat.2, hread.eq_add,
    List.length_append, List.length_append, String.length_toList]

/-- Where an atom without quotes stops. If it ends inside of a line ending, its stop lies behind all
of that. -/
theorem bareAtom_stop_iff {info : Metadata} {start : Position} {value : String}
    (hplace : info.place? = some start) (hat : start.IsAt src i)
    (hread : Reads src i j (':' :: value.toList)) :
    (textStop start value 1 0).offset? src = some j ↔
      breakCount value.toList = 0 ∨ info.column = some 1 ∧ ∃ p : Position, p.IsAt src j := by
  have hread' : Reads src i j ([':'] ++ value.toList ++ []) := by rwa [List.append_nil]
  by_cases hbreaks : breakCount value.toList = 0
  · simp only [hbreaks, true_or, iff_true]
    exact offset?_textStop_of_unbroken [':'] [] hat hread' hbreaks
  · by_cases hend : ∃ p : Position, p.IsAt src j
    · obtain ⟨p, hp⟩ := hend
      have hj : j = i + ([':'].length + value.length) := by
        rw [hread.eq_add, List.length_cons, String.length_toList, Nat.add_comm value.length]
        rfl
      have hstop : (textStop start value 1 0).offset? src = some (j + surplus start value) :=
        offset?_textStop [':'] [] hat hread' rfl (hj ▸ hp)
      rw [offset?_surplus_iff hplace hstop, Measured]
      exact or_congr_right (and_iff_left ⟨p, hp⟩).symm
    · obtain ⟨front, back, rfl, hseam, rfl, rfl, rfl⟩ := hat.split hread
      have hcut : ¬Seam (front ++ (':' :: value.toList)) back := fun h =>
        hend ⟨_, Position.isAt_iff.mpr
          ⟨_, back, (List.append_assoc ..).symm, h, rfl, List.length_append⟩⟩
      have hstop := Position.offset?_advance (Position.offset?_after_of_not_seam hcut)
        (0 + surplus (.after front) value)
      have htext : textStop (.after front) value 1 0 = (Position.after
          (front ++ (':' :: value.toList))).advance (0 + surplus (.after front) value) :=
        textStop_after (show breakCount [':'] = 0 from rfl) hseam.left 0
      simp only [hbreaks, hend, and_false, or_self, iff_false]
      rw [htext]
      intro hoffset
      rw [List.append_assoc] at hstop
      have hsame := Option.some.inj (hstop.symm.trans hoffset)
      simp only [List.length_append, List.length_cons] at hsame
      omega

/-- Where a literal between two delimiters of one character stops. -/
theorem quoted_stop_iff {info : Metadata} {start : Position} {value : String} {d : Char}
    (front : List Char) (hplace : info.place? = some start) (hat : start.IsAt src i)
    (hfront : breakCount front = 0) (hd : breakCount [d] = 0)
    (hread : Reads src i j (front ++ [d] ++ value.toList ++ [d])) :
    (textStop start value (front ++ [d]).length 1).offset? src = some j ↔ Measured info value := by
  have hopening : breakCount (front ++ [d]) = 0 := by
    rw [breakCount_append (seam_of_unbroken_left hfront [d]), hfront, hd]
  obtain ⟨before, back, hsrc, -, -, hlength, -⟩ := hat.split hread
  have hseam : Seam (before ++ (front ++ [d] ++ value.toList)) ([d] ++ back) :=
    seam_of_unbroken_right hd (List.cons_ne_nil d []) _ back
  have hend : (Position.after (before ++ (front ++ [d] ++ value.toList))).IsAt src
      (i + ((front ++ [d]).length + value.length)) := by
    refine Position.isAt_iff.mpr ⟨_, [d] ++ back, ?_, hseam, rfl, ?_⟩
    · rw [hsrc]
      simp only [List.append_assoc]
    · rw [List.length_append, List.length_append, hlength, String.length_toList]
  exact offset?_surplus_iff hplace (offset?_textStop (front ++ [d]) [d] hat hread hopening hend)

/-- The closing delimiter of a triple-quoted string stands one line below the last line ending of
its text. -/
theorem offset?_heredoc {start : Position} {value delimiter : String} {k : Nat}
    (hcloses : HeredocCloses src start [.text value] k) :
    (start.below start (lines value.toList).length delimiter.length).offset? src =
      some (k + delimiter.length) := by
  obtain ⟨q, hat, hcolumn, hline⟩ := hcloses
  have hstop : start.below start (lines value.toList).length delimiter.length =
      q.advance delimiter.length := by
    refine Position.ext ?_ ?_
    · rw [Position.line_below, Position.line_advance, hline, length_lines, lineAfter, lineAfter]
      omega
    · rw [Position.column_below, Position.column_advance, hcolumn]
  rw [hstop]
  exact Position.offset?_advance hat.2 delimiter.length

/-- Where an interpolated literal with an expression stops that closes with one character. -/
theorem interpolationStop_iff_of_hasEmbedded {start : Position} {pieces : List Piece} {d : Char}
    {l k : Nat} (hpieces : PiecesRead src pieces l k) (hsome : hasEmbedded pieces = true) :
    ∃ stop, interpolationStop pieces (String.singleton d) start = .ok stop ∧ ∀ width,
      ((stop.advance width).offset? src = some (k + 1 + width) ↔
        RunsOn pieces ∨ start.column = 1) := by
  obtain ⟨q, here, hq, hwalk, hruns, hbroken⟩ := walk_of_hasEmbedded hpieces hsome
  refine ⟨here.advance 1, ?_, fun width => ?_⟩
  · rw [interpolationStop_eq hwalk, hsome, isTriple_singleton]
    rfl
  · rw [Position.advance_advance, Nat.add_assoc]
    exact offset?_iff_runsOn hq hruns hbroken (1 + width)

/-- Where an interpolated literal without an expression stops whose opening token is `width`
characters wide. -/
theorem interpolationStop_of_texts {start p : Position} {pieces : List Piece} {delimiter : String}
    {l k : Nat} (width : Nat) (hpieces : PiecesRead src pieces l k)
    (hnone : hasEmbedded pieces = false) (hp : p.IsAt src l) (hstart : start.advance width = p) :
    ∃ q here : Position, interpolationStop pieces delimiter start = .ok (here.advance 2) ∧
      q.IsAt src k ∧ (RunsOn pieces → here.advance width = q) ∧
      (¬RunsOn pieces → here = q.advance (start.column - 1)) := by
  have hhere : start.advance width = p.advance 0 := hstart
  obtain ⟨q, here, hq, hwalk, hruns, hbroken⟩ := walk_texts hpieces hnone hp hhere
  refine ⟨q, here, ?_, hq, hruns, hbroken⟩
  rw [interpolationStop_eq hwalk, hnone]
  rfl

/-- The stop of such a literal is right, with `more` behind it, exactly if its text is a single line
and what is added behind the text makes up for the opening token. -/
theorem offset?_texts_iff {start q here : Position} {pieces : List Piece} {width k : Nat}
    (hq : q.IsAt src k) (hruns : RunsOn pieces → here.advance width = q)
    (hbroken : ¬RunsOn pieces → here = q.advance (start.column - 1)) {added more : Nat}
    (hmore : more < added) :
    (here.advance added).offset? src = some (k + more) ↔ RunsOn pieces ∧ added = width + more := by
  by_cases hrunsOn : RunsOn pieces
  · have hhere : ∃ offset, here.offset? src = some offset := by
      have hk := hq.2
      rw [← hruns hrunsOn, Position.offset?, Position.line_advance] at hk
      obtain ⟨base, hbase, -⟩ := Option.map_eq_some_iff.mp hk
      exact ⟨_, Option.map_eq_some_iff.mpr ⟨base, hbase, rfl⟩⟩
    obtain ⟨offset, hoffset⟩ := hhere
    have hk := Position.offset?_advance hoffset width
    rw [hruns hrunsOn, hq.2, Option.some.injEq] at hk
    rw [Position.offset?_advance hoffset, Option.some.injEq]
    simp only [hrunsOn, true_and]
    omega
  · rw [hbroken hrunsOn, Position.offset?_advance (Position.offset?_advance hq.2 _),
      Option.some.injEq]
    simp only [hrunsOn, false_and, iff_false]
    omega

/-- A closing triple delimiter behind an expression is measured right exactly in the first column. -/
theorem interpolationStop_iff_of_heredoc {start : Position} {pieces : List Piece}
    {delimiter : String} {k : Nat} (hcloses : HeredocCloses src start pieces k)
    (htriple : isTriple delimiter = true) (hclosed : pieces.any Piece.isUnclosed = false)
    (hsome : hasEmbedded pieces = true) :
    ∃ stop, interpolationStop pieces delimiter start = .ok stop ∧ ∀ width,
      ((stop.advance width).offset? src = some (k + 3 + width) ↔ start.column = 1) := by
  obtain ⟨q, hat, hqcolumn, hqline⟩ := hcloses
  obtain ⟨here, hwalk, hline⟩ := walk_line start start hclosed
  refine ⟨here.behind delimiter.length, ?_, fun width => ?_⟩
  · rw [interpolationStop_eq hwalk, hsome, htriple]
    rfl
  · obtain ⟨base, hbase, hk⟩ := Option.map_eq_some_iff.mp hat.2
    have hstop : ((here.behind delimiter.length).advance width).line = q.line := by
      rw [Position.line_advance, Position.line_behind, hline, hqline]
      exact lineAfter_of_hasEmbedded hsome hclosed _ _
    have hpos := q.column_pos
    rw [Position.offset?, hstop, hbase, Option.map_some, Option.some.injEq, Position.column_advance,
      Position.column_behind, length_of_isTriple htriple]
    omega

theorem interpolation_stop_iff {info : Metadata} {pieces : List Piece} {d : Char} {k : Nat}
    (hopens : info.OpensAt src i) (hdelimiter : delimiterOf info = String.singleton d)
    (hfront : Reads src i (i + 1) [d]) (hd : breakCount [d] = 0)
    (hpieces : PiecesRead src pieces (i + 1) k) :
    ∃ stop, (Node.interpolation info pieces).ownStop? = some stop ∧
      (stop.offset? src = some (k + 1) ↔ (Node.interpolation info pieces).Aligned src (k + 1)) := by
  obtain ⟨start, hplace, hat⟩ := hopens
  rw [Node.Aligned, Metadata.column_eq_one_iff hplace, hdelimiter, isTriple_singleton]
  simp only [Node.ownStop?, hplace, Option.bind_some, hdelimiter, true_and]
  by_cases hsome : hasEmbedded pieces = true
  · obtain ⟨stop, hstop, hiff⟩ := interpolationStop_iff_of_hasEmbedded hpieces hsome
    refine ⟨stop, by rw [hstop]; rfl, ?_⟩
    simpa only [hsome, true_and, Position.advance_zero, Nat.add_zero] using hiff 0
  · obtain ⟨q, here, hstop, hq, hruns, hbroken⟩ := interpolationStop_of_texts 1 hpieces
      (Bool.eq_false_iff.mpr hsome) (hat.advance hfront hd (List.cons_ne_nil d [])) rfl
    refine ⟨here.advance 2, by rw [hstop]; rfl, ?_⟩
    rw [offset?_texts_iff hq hruns hbroken Nat.one_lt_two]
    simp only [hsome, Bool.false_eq_true, false_and, or_false, and_true]

theorem interpolatedAtom_stop_iff {info bodyInfo : Metadata} {pieces : List Piece} {d : Char}
    {k : Nat} (hopens : bodyInfo.OpensAt src i)
    (hdelimiter : delimiterOf info = String.singleton d) (hfront : Reads src i (i + 2) [':', d])
    (hd : breakCount [d] = 0) (hpieces : PiecesRead src pieces (i + 2) k) :
    ∃ stop, (Node.interpolatedAtom info bodyInfo pieces).ownStop? = some stop ∧
      (stop.offset? src = some (k + 1) ↔
        (Node.interpolatedAtom info bodyInfo pieces).Aligned src (k + 1)) := by
  obtain ⟨start, hplace, hat⟩ := hopens
  rw [Node.Aligned, Metadata.column_eq_one_iff hplace]
  simp only [Node.ownStop?, hplace, Option.bind_some, hdelimiter]
  by_cases hsome : hasEmbedded pieces = true
  · obtain ⟨stop, hstop, hiff⟩ := interpolationStop_iff_of_hasEmbedded hpieces hsome
    refine ⟨stop, by rw [hstop]; rfl, ?_⟩
    simpa only [hsome, true_and, Position.advance_zero, Nat.add_zero] using hiff 0
  · have hopening : breakCount [':', d] = 0 := by
      rw [breakCount_char (by decide) (by decide), hd]
    obtain ⟨q, here, hstop, hq, hruns, hbroken⟩ := interpolationStop_of_texts 2 hpieces
      (Bool.eq_false_iff.mpr hsome) (hat.advance hfront hopening (List.cons_ne_nil _ _)) rfl
    refine ⟨here.advance 2, by rw [hstop]; rfl, ?_⟩
    -- What is added behind the text only makes up for the opening token.
    rw [offset?_texts_iff hq hruns hbroken Nat.one_lt_two]
    simp only [hsome, Bool.false_eq_true, false_and, iff_false]
    omega

/-- Without an expression, the stop of a triple-quoted literal is on the line in front of its
closing delimiter. -/
theorem interpolationHeredoc_stop_iff {info : Metadata} {pieces : List Piece} {start : Position}
    {k : Nat} (hplace : info.place? = some start) (htriple : isTriple (delimiterOf info) = true)
    (hclosed : pieces.any Piece.isUnclosed = false) (hcloses : HeredocCloses src start pieces k)
    (hlines : lastLine (String.join (trailing pieces)).toList = []) :
    ∃ stop, (Node.interpolation info pieces).ownStop? = some stop ∧
      (stop.offset? src = some (k + 3) ↔ (Node.interpolation info pieces).Aligned src (k + 3)) := by
  rw [Node.Aligned, Metadata.column_eq_one_iff hplace, htriple]
  simp only [Node.ownStop?, hplace, Option.bind_some, Bool.true_eq_false, false_and, false_or]
  by_cases hsome : hasEmbedded pieces = true
  · obtain ⟨stop, hstop, hiff⟩ := interpolationStop_iff_of_heredoc hcloses htriple hclosed hsome
    refine ⟨stop, by rw [hstop]; rfl, ?_⟩
    simpa only [hsome, true_and, Position.advance_zero, Nat.add_zero] using hiff 0
  · have hnone : hasEmbedded pieces = false := Bool.eq_false_iff.mpr hsome
    obtain ⟨q, hat, hqcolumn, hqline⟩ := hcloses
    obtain ⟨here, hwalk, hline⟩ := walk_line start start hclosed
    have hcolumn := walk_column hnone hlines (fun _ => rfl) hwalk
    rw [lineAfter_succ hnone] at hqline
    refine ⟨here.advance 2, by rw [interpolationStop_eq hwalk, hnone]; rfl, ?_⟩
    simp only [hsome, Bool.false_eq_true, false_and, iff_false]
    intro hoffset
    cases hhere : here.offset? src with
    | none =>
        rw [Position.offset?, Option.map_eq_none_iff] at hhere
        rw [Position.offset?, Position.line_advance, hhere] at hoffset
        cases hoffset
    | some offset =>
        have hless := Position.offset_lt_of_line_lt (by omega) (by omega) hhere hat.2
        rw [Position.offset?_advance hhere, Option.some.injEq] at hoffset
        omega

/-- The stop of a sigil, from that of its body. -/
theorem sigilStop_eq {info : Metadata} {pieces : List Piece} {modifiers delimiter : String}
    {start stop : Position} (hplace : info.place? = some start)
    (hdelimiter : info.delimiter = some delimiter)
    (hstop : interpolationStop pieces delimiter start = .ok stop) :
    sigilStop info pieces modifiers = .ok
      (if isTriple delimiter && !hasEmbedded pieces then
        (stop.advance modifiers.length).below start 1 tripleWidth
      else if isTriple delimiter || hasEmbedded pieces then stop.advance modifiers.length
      else (stop.advance modifiers.length).advance sigilOpeningWidth) := by
  rw [sigilStop, Metadata.position_of_place? hplace, hdelimiter]
  simp only [need, bind, Except.bind, hstop]
  split_ifs <;> rfl

theorem sigil_stop_iff {info : Metadata} (bodyInfo : Metadata) {letter modifiers : String}
    {pieces : List Piece} {d : Char} {l k : Nat} (hopens : info.OpensAt src i)
    (hdelimiter : info.delimiter = some (String.singleton d))
    (hfront : Reads src i l ('~' :: letter.toList ++ [d]))
    (hopening : breakCount ('~' :: letter.toList ++ [d]) = 0) (hpieces : PiecesRead src pieces l k) :
    ∃ stop, (Node.sigil info letter bodyInfo pieces modifiers).ownStop? = some stop ∧
      (stop.offset? src = some (k + (modifiers.length + 1)) ↔
        (Node.sigil info letter bodyInfo pieces modifiers).Aligned src
          (k + (modifiers.length + 1))) := by
  obtain ⟨start, hplace, hat⟩ := hopens
  rw [Node.Aligned, Metadata.column_eq_one_iff hplace, hdelimiter, Option.any_some,
    isTriple_singleton, Node.ownStop?]
  by_cases hsome : hasEmbedded pieces = true
  · obtain ⟨stop, hstop, hiff⟩ := interpolationStop_iff_of_hasEmbedded hpieces hsome
    refine ⟨stop.advance modifiers.length, ?_, ?_⟩
    · rw [sigilStop_eq hplace hdelimiter hstop, isTriple_singleton, hsome]
      rfl
    · rw [if_pos hsome, Nat.add_comm modifiers.length, ← Nat.add_assoc, hiff]
      simp only [true_and]
  · have hnone : hasEmbedded pieces = false := Bool.eq_false_iff.mpr hsome
    have hp := hat.advance hfront hopening (List.cons_ne_nil _ _)
    obtain ⟨q, here, hstop, hq, hruns, hbroken⟩ :=
      interpolationStop_of_texts _ hpieces hnone hp rfl
    refine ⟨here.advance (2 + modifiers.length + 2), ?_, ?_⟩
    · rw [sigilStop_eq hplace hdelimiter hstop, isTriple_singleton, hnone,
        ← Position.advance_advance, ← Position.advance_advance]
      rfl
    · rw [offset?_texts_iff hq hruns hbroken (by omega), if_neg hsome, if_neg Bool.false_ne_true,
        List.length_append, List.length_cons, String.length_toList]
      refine and_congr_right fun _ => ?_
      simp only [List.length_cons, List.length_nil]
      omega

theorem sigilHeredoc_stop_iff {info : Metadata} (bodyInfo : Metadata)
    {letter modifiers delimiter : String} {pieces : List Piece} {start : Position} {k : Nat}
    (hplace : info.place? = some start)
    (hdelimiter : info.delimiter = some delimiter) (htriple : isTriple delimiter = true)
    (hclosed : pieces.any Piece.isUnclosed = false) (hcloses : HeredocCloses src start pieces k) :
    ∃ stop, (Node.sigil info letter bodyInfo pieces modifiers).ownStop? = some stop ∧
      (stop.offset? src = some (k + (3 + modifiers.length)) ↔
        (Node.sigil info letter bodyInfo pieces modifiers).Aligned src
          (k + (3 + modifiers.length))) := by
  rw [Node.Aligned, Metadata.column_eq_one_iff hplace, hdelimiter, Option.any_some, htriple,
    Node.ownStop?]
  by_cases hsome : hasEmbedded pieces = true
  · obtain ⟨stop, hstop, hiff⟩ := interpolationStop_iff_of_heredoc hcloses htriple hclosed hsome
    refine ⟨stop.advance modifiers.length, ?_, ?_⟩
    · rw [sigilStop_eq hplace hdelimiter hstop, htriple, hsome]
      rfl
    · rw [if_pos hsome, ← Nat.add_assoc, hiff]
      simp only [Bool.true_eq_false, false_and, false_or]
  · have hnone : hasEmbedded pieces = false := Bool.eq_false_iff.mpr hsome
    obtain ⟨here, hwalk, hline⟩ := walk_line start start hclosed
    have hstop : interpolationStop pieces delimiter start = .ok (here.advance 2) := by
      rw [interpolationStop_eq hwalk, hnone]
      rfl
    obtain ⟨q, hat, hqcolumn, hqline⟩ := hcloses
    refine ⟨q.advance 3, ?_, ?_⟩
    · rw [sigilStop_eq hplace hdelimiter hstop, htriple, hnone]
      refine congrArg some (Position.ext ?_ ?_)
      · change here.line + 1 = q.line
        rw [hqline, hline, lineAfter_succ hnone]
      · change start.column + 3 = q.column + 3
        rw [hqcolumn]
    · rw [offset?_iff (Position.offset?_advance hat.2 3), if_neg hsome, if_pos rfl,
        ← String.length_eq_zero_iff]
      omega

/-- A recorded value without a child at its end stops where it is recorded to stop, exactly if its
rule measures it right. -/
theorem Recorded.ownStop_iff {v : Value} (h : Recorded src v i j) (hstep : v.rightStep = none) :
    ∃ stop, v.ownStop? = some stop ∧ (stop.offset? src = some j ↔ v.Aligned src j) := by
  -- Most rules find the right stop whatever the text is.
  have hright {v : Value} {j : Nat} (haligned : v.Aligned src j)
      (h : ∃ stop, v.ownStop? = some stop ∧ stop.offset? src = some j) :
      ∃ stop, v.ownStop? = some stop ∧ (stop.offset? src = some j ↔ v.Aligned src j) := by
    obtain ⟨stop, hstop, hoffset⟩ := h
    exact ⟨stop, hstop, iff_of_true hoffset haligned⟩
  cases h with
  | @number info value token i j hopens htoken hread =>
      obtain ⟨start, hplace, hat⟩ := hopens
      refine hright trivial ⟨start.advance token.length, ?_, ?_⟩
      · simp [Value.ownStop?, Node.ownStop?, hplace, htoken]
      · rw [Position.offset?_advance hat.2, hread.eq_add, String.length_toList]
  | @«variable» info name i j hopens hread =>
      obtain ⟨start, hplace, hat⟩ := hopens
      refine hright trivial ⟨start.advance name.length, ?_, ?_⟩
      · simp [Value.ownStop?, Node.ownStop?, hplace]
      · rw [Position.offset?_advance hat.2, hread.eq_add, String.length_toList]
  | @bareAtom info value i j hopens hdelimiter hread =>
      obtain ⟨start, hplace, hat⟩ := hopens
      refine ⟨textStop start value 1 0, ?_, ?_⟩
      · simp [Value.ownStop?, Node.ownStop?, hplace, hdelimiter]
      · rw [bareAtom_stop_iff hplace hat hread, Value.Aligned, Node.Aligned, hdelimiter]
        simp only [true_imp_iff]
  | @quotedAtom info value d i j hopens hdelimiter hread hd =>
      obtain ⟨start, hplace, hat⟩ := hopens
      refine ⟨textStop start value 2 1, ?_, ?_⟩
      · simp [Value.ownStop?, Node.ownStop?, hplace, hdelimiter]
      · refine (quoted_stop_iff [':'] hplace hat rfl hd hread).trans ?_
        rw [Value.Aligned, Node.Aligned, Measured, hdelimiter]
        simp only [reduceCtorEq, false_imp_iff, and_true]
  | @string info value d i j hopens hdelimiter hread hd =>
      obtain ⟨start, hplace, hat⟩ := hopens
      refine ⟨textStop start value 1 1, ?_, ?_⟩
      · simp [Value.ownStop?, Node.ownStop?, hplace, hdelimiter, isTriple_singleton]
      · refine (quoted_stop_iff [] hplace hat rfl hd hread).trans ?_
        rw [Value.Aligned, Node.Aligned, hdelimiter, Option.any_some, isTriple_singleton]
        simp only [Bool.false_eq_true, false_or]
  | @heredoc info value delimiter start i k j hplace hat hdelimiter htriple hlines hcloses hread =>
      have haligned : (Value.node (.string info value)).Aligned src j := by
        rw [Value.Aligned, Node.Aligned, hdelimiter]
        exact .inl htriple
      refine hright haligned
        ⟨start.below start (lines value.toList).length delimiter.length, ?_, ?_⟩
      · simp [Value.ownStop?, Node.ownStop?, hplace, hdelimiter, htriple]
      · rw [offset?_heredoc hcloses, hread.eq_add, String.length_toList]
  | «alias» info segments first last hfirst hlast hname hnode hlastName hlastNode =>
      simp only [Value.rightStep, Node.rightStep, hlast] at hstep
      cases last with
      | node n => cases hstep
      | name text =>
          obtain ⟨p, m, hp, hat, hread⟩ := hlastName text rfl
          refine hright trivial ⟨p.advance text.length, ?_, ?_⟩
          · simp [Value.ownStop?, Node.ownStop?, hlast, hp]
          · rw [Position.offset?_advance hat.2, hread.eq_add, String.length_toList]
  | closedBlock hopens hcloses => exact hright trivial hcloses.exists_closingStop?
  | openBlock hclosing hfirst hlast hfront hback =>
      simp [Value.rightStep, Node.rightStep, hclosing, hlast] at hstep
  | pair hkey hvalue => cases hstep
  | operation hform hfront hback => simp [Value.rightStep, Node.rightStep, hform] at hstep
  | unary hform hopens hoperand => simp [Value.rightStep, Node.rightStep, hform] at hstep
  | closedCall hform hopens hcloses =>
      obtain ⟨stop, hstop, hoffset⟩ := hcloses.exists_closingStop?
      exact hright (.inl hcloses.hasClosing)
        ⟨stop, by simp [Value.ownStop?, Node.ownStop?, hstop], hoffset⟩
  | openCall hform hopens hclosing hlast hback =>
      simp [Value.rightStep, Node.rightStep, hform, lastArgument?, hclosing, hlast] at hstep
  | @bareCall info name i j hopens hclosing hread =>
      obtain ⟨start, hplace, hat⟩ := hopens
      refine ⟨start, ?_, ?_⟩
      · simp [Value.ownStop?, Node.ownStop?, Metadata.closingStop?_eq_none hclosing, hplace]
      · -- The call covers nothing, so its name has to be empty.
        rw [offset?_iff hat.2, hread.eq_add, Value.Aligned, Node.Aligned, hclosing,
          String.length_toList, ← String.length_eq_zero_iff]
        simp only [Bool.false_eq_true, false_or]
        omega
  | closedRemoteCall hreceiver hcloses =>
      obtain ⟨stop, hstop, hoffset⟩ := hcloses.exists_closingStop?
      exact hright trivial ⟨stop, by simp [Value.ownStop?, Node.ownStop?, hstop], hoffset⟩
  | openRemoteCall hreceiver hclosing hlast hback =>
      simp [Value.rightStep, Node.rightStep, lastArgument?, hclosing, hlast] at hstep
  | @bareRemoteCall info dotInfo receiver name i j k l hreceiver hclosing hopens hread =>
      obtain ⟨own, hplace, hat⟩ := hopens
      have hnone : info.closingStop? = none := Metadata.closingStop?_eq_none hclosing
      have hwidth : ((name.getD "").toList ++ if info.noParens then [] else ['(', ')']).length =
          (name.map String.length).getD 0 + if info.noParens then 0 else parenthesesWidth := by
        rw [List.length_append, String.length_toList]
        cases name <;> split_ifs <;> rfl
      have hoffset := Position.offset?_advance hat.2
        ((name.map String.length).getD 0 + if info.noParens then 0 else parenthesesWidth)
      rw [← hwidth, ← hread.eq_add, hwidth] at hoffset
      refine hright trivial ⟨_, ?_, hoffset⟩
      simp only [Value.ownStop?, Node.ownStop?, hnone, hplace, Option.none_or, Option.map_some]
  | access hsubject hcloses => exact hright trivial hcloses.exists_closingStop?
  | qualifiedTuple hreceiver hcloses => exact hright trivial hcloses.exists_closingStop?
  | embedded hopens hcloses => exact hright trivial hcloses.exists_closingStop?
  | bitstring hopens hcloses =>
      obtain ⟨stop, hstop, hoffset⟩ := hcloses.exists_closingStop?
      refine hright trivial ⟨stop.advance 1, ?_, Position.offset?_advance hoffset 1⟩
      simp [Value.ownStop?, Node.ownStop?, hstop, bitstringSurplus]
  | interpolation hopens hdelimiter hfront hpieces hback hd =>
      rw [hback.eq_add]
      exact interpolation_stop_iff hopens hdelimiter hfront hd hpieces
  | interpolationHeredoc hplace hat htriple hclosed hcloses hread hlines =>
      rw [hread.eq_add, String.length_toList, length_of_isTriple htriple]
      exact interpolationHeredoc_stop_iff hplace htriple hclosed hcloses hlines
  | interpolatedAtom hopens hdelimiter hfront hpieces hback hd =>
      rw [hback.eq_add]
      exact interpolatedAtom_stop_iff hopens hdelimiter hfront hd hpieces
  | sigil hopens hdelimiter hfront hpieces hback hopening =>
      rw [hback.eq_add, List.length_cons, String.length_toList]
      rw [Value.ownStop?, Value.Aligned]
      exact sigil_stop_iff _ hopens hdelimiter hfront hopening hpieces
  | sigilHeredoc hplace hat hdelimiter htriple hclosed hcloses hread =>
      rw [hread.eq_add, List.length_append, String.length_toList, String.length_toList,
        length_of_isTriple htriple, Value.ownStop?, Value.Aligned]
      exact sigilHeredoc_stop_iff _ hplace hdelimiter htriple hclosed hcloses
  | sequence hfirst hlast hfront hback => cases hlast.symm.trans hstep

/-! ### The round trip -/

/-- The characters of a text from offset `i` up to offset `j`. -/
def cut (text : List Char) (i j : Nat) : List Char :=
  (text.drop i).take (j - i)

/-- The span of a value that is recorded at a stretch of a source text starts where the stretch
starts. It stops where the stretch stops exactly if the value at the end of the right walk is
measured right, and then it covers the stretch. Operators on the right walk that stand on another
line than the stop are counted on top of that. -/
theorem Recorded.slice_spanOf {v : Value} (h : Recorded src v i j) (machine : Machine)
    (options : Options) (hplain : options.includeComments = false)
    (hheight : v.height ≤ min options.maxDepth machine.levels) :
    ∃ span width, options.spanOf v machine = .ok span ∧
      width = (v.rightSpine.map (Value.unaryWidth span.stop.line)).sum ∧
      span.start.IsAt src i ∧
      (span.stop.offset? src = some (j + width) ↔ v.rightAnchor.Aligned src j) ∧
      (v.rightAnchor.Aligned src j → span.slice? src = some (cut src i (j + width))) := by
  have hreach : v.height ≤ machine.reach options.maxDepth := hheight
  obtain ⟨span, hspan⟩ := h.exists_span hreach
  have hwithin := Value.span_eq_ok_iff.mp hspan
  have hstart : span.start.IsAt src i := by
    obtain ⟨p, hp, hat⟩ := h.opening?_leftAnchor
    rw [Value.opening?_leftAnchor hwithin, Option.some.injEq] at hp
    rwa [hp]
  have hstop : span.stop.offset? src = some (j + v.spineWidth span.stop.line) ↔
      v.rightAnchor.Aligned src j := by
    obtain ⟨k, hanchor, hstep⟩ := h.rightAnchor
    obtain ⟨stop, hown, hiff⟩ := hanchor.ownStop_iff hstep
    obtain ⟨stop', hown', hadvance⟩ := Value.ownStop?_rightAnchor hwithin
    rw [hown, Option.some.injEq] at hown'
    subst hown'
    rw [hadvance, Position.line_advance, Position.offset?_advance_iff, hiff]
  refine ⟨span, v.spineWidth span.stop.line, ?_, rfl, hstart, hstop, fun haligned => ?_⟩
  · rw [Options.spanOf_plain hplain, hspan]
  · rw [Span.slice?, hstart.2, hstop.mpr haligned]
    rfl

/-- An operator at the end of a line and a string on the next two. -/
def joinedStrings : Value :=
  .node (.call {} "<>"
    [.node (.variable { line := some 1, column := some 1 } "a"),
      .node (.string { line := some 2, column := some 1, delimiter := some "\"" } "b\nc")])

/-- The source text that `joinedStrings` was read from, with something behind it. -/
def joinedSource : List Char :=
  ['a', ' ', '<', '>', '\r', '\n', '"', 'b', '\n', 'c', '"', ' ', 'd']

theorem recorded_joinedStrings : Recorded joinedSource joinedStrings 0 11 := by
  have hleft : Recorded joinedSource
      (.node (.variable { line := some 1, column := some 1 } "a")) 0 1 := by
    refine .variable ?_ ?_
    · exact ⟨⟨1, 1, by decide, by decide⟩, rfl, ⟨['a', ' ', '<', '>'], rfl, by decide⟩, rfl⟩
    · exact ⟨[], _, rfl, rfl, rfl⟩
  have hright : Recorded joinedSource (.node
      (.string { line := some 2, column := some 1, delimiter := some "\"" } "b\nc")) 6 11 := by
    refine .string (d := '"') ?_ rfl ?_ rfl
    · exact ⟨⟨2, 1, by decide, by decide⟩, rfl, ⟨['"', 'b'], rfl, by decide⟩, rfl⟩
    · exact ⟨['a', ' ', '<', '>', '\r', '\n'], [' ', 'd'], rfl, rfl, rfl⟩
  exact .operation rfl hleft hright

theorem slice_joinedStrings : Recorded joinedSource joinedStrings 0 11 ∧
    joinedStrings.rightAnchor.Aligned joinedSource 11 ∧
    joinedStrings.height ≤ min Options.default.maxDepth Machine.standard.levels ∧
    ∃ span, Options.default.spanOf joinedStrings = .ok span ∧ span.slice? joinedSource =
      some ['a', ' ', '<', '>', '\r', '\n', '"', 'b', '\n', 'c', '"'] := by
  have hanchor : joinedStrings.rightAnchor = .node
      (.string { line := some 2, column := some 1, delimiter := some "\"" } "b\nc") :=
    (Value.rightAnchor_of_some rfl).trans (Value.rightAnchor_of_none rfl)
  have haligned : joinedStrings.rightAnchor.Aligned joinedSource 11 := by
    rw [hanchor]
    exact .inr (.inr rfl)
  have hheight : joinedStrings.height ≤ min Options.default.maxDepth Machine.standard.levels :=
    Nat.le_of_lt_succ (Value.height_lt_iff.mpr rfl)
  obtain ⟨span, width, hspan, hwidth, -, -, hslice⟩ :=
    recorded_joinedStrings.slice_spanOf .standard .default rfl hheight
  rw [Value.rightSpine_of_some rfl, Value.rightSpine_of_none rfl] at hwidth
  obtain rfl : width = 0 := hwidth
  exact ⟨recorded_joinedStrings, haligned, hheight, span, hspan, hslice haligned⟩

/-- A string of two lines that does not open in the first column. -/
def indentedString : Value :=
  .node (.string { line := some 1, column := some 2, delimiter := some "\"" } "a\nb")

/-- The source text that `indentedString` was read from, with something behind it. -/
def indentedSource : List Char :=
  [' ', '"', 'a', '\n', 'b', '"', ' ', 'c']

/-- Without the conditions on its end, a recorded value may be given too long a span. -/
theorem slice_indentedString : Recorded indentedSource indentedString 1 6 ∧
    indentedString.height ≤ min Options.default.maxDepth Machine.standard.levels ∧
    ∃ span, Options.default.spanOf indentedString = .ok span ∧
      span.slice? indentedSource = some ['"', 'a', '\n', 'b', '"', ' '] ∧
      span.slice? indentedSource ≠ some (cut indentedSource 1 6) := by
  refine ⟨.string (d := '"') ?_ rfl ?_ rfl, ?_, _, rfl, rfl, ?_⟩
  · exact ⟨⟨1, 2, by decide, by decide⟩, rfl, ⟨[' ', '"', 'a'], rfl, by decide⟩, rfl⟩
  · exact ⟨[' '], [' ', 'c'], rfl, rfl, rfl⟩
  · exact Nat.le_of_lt_succ (Value.height_lt_iff.mpr rfl)
  · decide

end SourceSpan
