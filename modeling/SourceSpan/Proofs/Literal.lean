import SourceSpan.Proofs.Decomposition
import SourceSpan.Proofs.Recorded

/-!
# Literals in a source text

A literal is measured from its own position and its text alone. As long as the text has no line
ending behind the last recorded position, its stop is right. Behind a line ending the column is
counted from that of the literal, so the stop lies too far right by as many columns as there are in
front of the literal. The lemmas here say where a stop lies, compared with the place where the text
ends: for a plain text, for the walk over the pieces of an interpolated literal, and for a closing
delimiter on a line of its own.
-/

namespace SourceSpan

open Layout Text

variable {src : List Char} {i j : Nat}

/-! ### Positions behind a text -/

theorem Reads.eq_add {text : List Char} (h : Reads src i j text) : j = i + text.length := by
  obtain ⟨front, back, -, -, hj⟩ := h
  exact hj

/-- A source text is cut in front of what is read at a position and behind it. -/
theorem Position.IsAt.split {p : Position} {text : List Char} (hp : p.IsAt src i)
    (hread : Reads src i j text) : ∃ front back, src = front ++ (text ++ back) ∧
      Seam front (text ++ back) ∧ p = after front ∧ front.length = i ∧ j = i + text.length := by
  obtain ⟨front, rest, hsrc, hseam, hp, hlength⟩ := isAt_iff.mp hp
  obtain ⟨front', back, hsrc', hlength', hj⟩ := hread
  obtain ⟨rfl, rfl⟩ := List.append_inj (hsrc.symm.trans hsrc') (hlength.trans hlength'.symm)
  exact ⟨front, back, hsrc, hseam, hp, hlength, hj⟩

/-- The position behind a text follows from the position in front of it. -/
theorem Position.IsAt.eq_of_reads {p q : Position} {text : List Char} (hp : p.IsAt src i)
    (hread : Reads src i j text) (hq : q.IsAt src j) :
    q = if breakCount text = 0 then p.advance text.length
      else p.below (after []) (breakCount text) (lastLine text).length := by
  obtain ⟨front, back, rfl, hseam, rfl, rfl, rfl⟩ := hp.split hread
  obtain ⟨front', back', hsrc, -, rfl, hlength⟩ := isAt_iff.mp hq
  rw [← List.append_assoc] at hsrc
  obtain ⟨rfl, rfl⟩ := List.append_inj hsrc (by rw [hlength, List.length_append])
  exact after_append hseam.left

/-- A text without a line ending ends at a position, whatever follows it. -/
theorem Position.IsAt.advance {p : Position} {text : List Char} (hp : p.IsAt src i)
    (hread : Reads src i j text) (hbreaks : breakCount text = 0) (hne : text ≠ []) :
    (p.advance text.length).IsAt src j := by
  obtain ⟨front, back, rfl, hseam, rfl, rfl, rfl⟩ := hp.split hread
  refine isAt_iff.mpr ⟨front ++ text, back, (List.append_assoc ..).symm, ?_, ?_, ?_⟩
  · exact (seam_of_unbroken_left hbreaks back).append front hne
  · rw [after_append hseam.left, if_pos hbreaks]
  · rw [List.length_append]

theorem textStop_of_unbroken {value : String} (h : breakCount value.toList = 0) (start : Position)
    (opening closing : Nat) :
    textStop start value opening closing = start.advance (opening + value.length + closing) := by
  rw [textStop, lastLine_eq_self h, if_pos h, String.length_toList]

/-- How far behind its end a text is measured to stop. Behind a line ending the column is counted
from that of the literal. -/
def surplus (start : Position) (value : String) : Nat :=
  if breakCount value.toList = 0 then 0 else start.column - 1

theorem surplus_eq_zero_iff {start : Position} {value : String} :
    surplus start value = 0 ↔ breakCount value.toList = 0 ∨ start.column = 1 := by
  have hpos := start.column_pos
  unfold surplus
  split_ifs with hbreaks
  · simp only [hbreaks, true_or]
  · simp only [hbreaks, false_or]
    omega

/-- The stop of a text in terms of the position behind it. -/
theorem textStop_after {front opening : List Char} {value : String} (hopening : breakCount opening = 0)
    (hseam : Seam front (opening ++ value.toList)) (closing : Nat) :
    textStop (.after front) value opening.length closing =
      (Position.after (front ++ (opening ++ value.toList))).advance
        (closing + surplus (.after front) value) := by
  have hopens : Seam opening value.toList := seam_of_unbroken_left hopening _
  have hcount : breakCount (opening ++ value.toList) = breakCount value.toList := by
    rw [breakCount_append hopens, hopening, Nat.zero_add]
  rw [Position.after_append hseam, hcount, surplus]
  by_cases hbreaks : breakCount value.toList = 0
  · rw [textStop_of_unbroken hbreaks, if_pos hbreaks, if_pos hbreaks, Position.advance_advance,
      List.length_append, String.length_toList]
    rfl
  · have hlast : lastLine (opening ++ value.toList) = lastLine value.toList := by
      rw [lastLine_append hopens, if_neg hbreaks]
    have hpos := (Position.after front).column_pos
    rw [textStop, if_neg hbreaks, if_neg hbreaks, if_neg hbreaks, hlast]
    refine Position.ext rfl ?_
    change (Position.after front).column + (_ + closing) =
      1 + _ + (closing + ((Position.after front).column - 1))
    omega

/-- The stop of a text lies behind its end by the surplus, if the text does not end inside of a line
ending. -/
theorem offset?_textStop {start q : Position} {value : String} (opening closing : List Char)
    (hat : start.IsAt src i) (hread : Reads src i j (opening ++ value.toList ++ closing))
    (hopening : breakCount opening = 0)
    (hq : q.IsAt src (i + (opening.length + value.length))) :
    (textStop start value opening.length closing.length).offset? src =
      some (j + surplus start value) := by
  obtain ⟨front, back, rfl, hseam, rfl, rfl, rfl⟩ := hat.split hread
  have hend : Seam (front ++ (opening ++ value.toList)) (closing ++ back) := by
    obtain ⟨front', back', hsrc, hseam', -, hlength⟩ := Position.isAt_iff.mp hq
    have hcut : (front ++ (opening ++ value.toList)) ++ (closing ++ back) = front' ++ back' := by
      rw [← hsrc]
      simp only [List.append_assoc]
    obtain ⟨rfl, rfl⟩ := List.append_inj hcut (by
      rw [hlength, List.length_append, List.length_append, String.length_toList])
    exact hseam'
  have hoffset := Position.offset?_advance (Position.offset?_after hend)
    (closing.length + surplus (.after front) value)
  rw [textStop_after hopening hseam.left.left]
  simpa only [List.append_assoc, List.length_append, Nat.add_assoc] using hoffset

/-! ### Walks over pieces -/

/-- No line ends behind the last embedded expression. -/
def RunsOn (pieces : List Piece) : Prop :=
  ∀ text ∈ trailing pieces, breakCount text.toList = 0

theorem runsOn_text {text : String} {rest : List Piece} (hnone : hasEmbedded rest = false) :
    RunsOn (.text text :: rest) ↔ breakCount text.toList = 0 ∧ RunsOn rest := by
  rw [RunsOn, trailing, if_neg (Bool.eq_false_iff.mp hnone), List.forall_mem_cons]
  rfl

theorem afterText_of_unbroken {text : String} (h : breakCount text.toList = 0)
    (start here : Position) : afterText start here text = here.advance text.length := by
  rw [afterText, lastLine_eq_self h, if_pos h, String.length_toList]

/-- Behind a line ending, a walk is too far right by the columns in front of the literal. -/
theorem afterText_of_broken {start here p q : Position} {text : String} (hp : p.IsAt src i)
    (hread : Reads src i j text.toList) (hq : q.IsAt src j) (hline : here.line = p.line)
    (hbreaks : breakCount text.toList ≠ 0) :
    afterText start here text = q.advance (start.column - 1) := by
  have hpos := start.column_pos
  rw [hp.eq_of_reads hread hq, if_neg hbreaks, afterText, if_neg hbreaks]
  refine Position.ext ?_ ?_
  · change here.line + _ = p.line + _
    rw [hline]
  · change start.column + _ = 1 + _ + (start.column - 1)
    omega

/-- A walk over texts keeps its distance to the place it has reached, until a line ends. From then on
it is too far right by the columns in front of the literal. -/
theorem walk_texts {start here p : Position} {pieces : List Piece} {ahead behind : Nat}
    (hpieces : PiecesRead src pieces i j) (hnone : hasEmbedded pieces = false) (hp : p.IsAt src i)
    (hhere : here.advance behind = p.advance ahead) :
    ∃ q stop : Position, q.IsAt src j ∧ walk start here pieces = .ok stop ∧
      (RunsOn pieces → stop.advance behind = q.advance ahead) ∧
      (¬RunsOn pieces → stop = q.advance (start.column - 1)) := by
  induction hpieces generalizing here p ahead behind with
  | nil i => exact ⟨p, here, hp, rfl, fun _ => hhere, fun h => absurd nofun h⟩
  | @text text rest q i k j hread hstop hrest ih =>
      have hrestNone : hasEmbedded rest = false := hnone
      rw [runsOn_text hrestNone, walk]
      by_cases hbreaks : breakCount text.toList = 0
      · simp only [hbreaks, true_and]
        refine ih hnone hstop ?_
        rw [hp.eq_of_reads hread hstop, if_pos hbreaks, afterText_of_unbroken hbreaks,
          String.length_toList, Position.advance_advance, Position.advance_advance, Nat.add_comm,
          ← Position.advance_advance, hhere, Position.advance_advance, Nat.add_comm]
      · have hline : here.line = p.line := by
          simpa only [Position.line_advance] using congrArg Position.line hhere
        have hafter : (afterText start here text).advance 0 = q.advance (start.column - 1) :=
          afterText_of_broken hp hread hstop hline hbreaks
        obtain ⟨q', stop, hq', hwalk, hruns, hbroken⟩ := ih hnone hstop hafter
        refine ⟨q', stop, hq', hwalk, fun h => absurd h.1 hbreaks, fun _ => ?_⟩
        by_cases hrest : RunsOn rest
        · exact hruns hrest
        · exact hbroken hrest
  | embedded => cases hnone

/-- A walk over pieces with an expression ends where they do, unless a line ends behind the last
expression. -/
theorem walk_of_hasEmbedded {start here : Position} {pieces : List Piece}
    (hpieces : PiecesRead src pieces i j) (hsome : hasEmbedded pieces = true) :
    ∃ q stop : Position, q.IsAt src j ∧ walk start here pieces = .ok stop ∧
      (RunsOn pieces → stop = q) ∧
      (¬RunsOn pieces → stop = q.advance (start.column - 1)) := by
  induction hpieces generalizing here with
  | nil => cases hsome
  | @text text rest q i k j hread hstop hrest ih =>
      -- In front of an expression nothing counts: the walk goes on from its brace.
      have hmore : hasEmbedded rest = true := hsome
      rw [RunsOn, trailing, if_pos hmore]
      exact ih hmore
  | @embedded info expr rest q i k j hclosing hat hread hrest ih =>
      rw [walk, hclosing]
      by_cases hmore : hasEmbedded rest = true
      · exact ih hmore
      · have hbrace : (q.advance 1).IsAt src (k + 1) :=
          hat.advance hread rfl (List.cons_ne_nil _ _)
        have hhere : (q.advance 1).advance 0 = (q.advance 1).advance 0 := rfl
        exact walk_texts hrest (Bool.eq_false_iff.mpr hmore) hbrace hhere

theorem exists_closing {info : Metadata} {expr : Node}
    (h : (Piece.embedded info expr).isUnclosed = false) : ∃ q, info.closing = some q := by
  rw [Piece.isUnclosed, Option.isNone_eq_false_iff] at h
  exact Option.isSome_iff_exists.mp h

theorem walk_line (start here : Position) {pieces : List Piece}
    (hclosed : pieces.any Piece.isUnclosed = false) :
    ∃ stop, walk start here pieces = .ok stop ∧ stop.line = lineAfter here.line pieces := by
  induction pieces generalizing here with
  | nil => exact ⟨here, rfl, rfl⟩
  | cons piece rest ih =>
      rw [List.any_cons, Bool.or_eq_false_iff] at hclosed
      cases piece with
      | text text =>
          obtain ⟨stop, hstop, hline⟩ := ih (afterText start here text) hclosed.2
          refine ⟨stop, hstop, ?_⟩
          rw [hline, lineAfter, afterText]
          split_ifs with hbreaks
          · rw [hbreaks]
            rfl
          · rfl
      | embedded info expr =>
          obtain ⟨q, hclosing⟩ := exists_closing hclosed.1
          obtain ⟨stop, hstop, hline⟩ := ih (q.advance 1) hclosed.2
          refine ⟨stop, ?_, ?_⟩
          · rw [walk, hclosing]
            exact hstop
          · rw [hline, lineAfter, hclosing]
            rfl

/-- An expression fixes the line, wherever the pieces start. -/
theorem lineAfter_of_hasEmbedded {pieces : List Piece} (hsome : hasEmbedded pieces = true)
    (hclosed : pieces.any Piece.isUnclosed = false) (a b : Nat) :
    lineAfter a pieces = lineAfter b pieces := by
  induction pieces generalizing a b with
  | nil => cases hsome
  | cons piece rest ih =>
      rw [List.any_cons, Bool.or_eq_false_iff] at hclosed
      cases piece with
      | text text => exact ih hsome hclosed.2 _ _
      | embedded info expr =>
          obtain ⟨q, hclosing⟩ := exists_closing hclosed.1
          rw [lineAfter, lineAfter, hclosing, Option.map_some, Option.getD_some, Option.getD_some]

theorem lineAfter_succ {pieces : List Piece} (hnone : hasEmbedded pieces = false) (line : Nat) :
    lineAfter (line + 1) pieces = lineAfter line pieces + 1 := by
  induction pieces generalizing line with
  | nil => rfl
  | cons piece rest ih =>
      cases piece with
      | text text =>
          rw [lineAfter, lineAfter, Nat.add_right_comm]
          exact ih hnone _
      | embedded info expr => cases hnone

/-- A walk over texts that end with a line ending is back in the column of the literal. -/
theorem walk_column {start here stop : Position} {pieces : List Piece}
    (hnone : hasEmbedded pieces = false)
    (hlines : lastLine (String.join (trailing pieces)).toList = [])
    (hhere : String.join (trailing pieces) = "" → here.column = start.column)
    (hwalk : walk start here pieces = .ok stop) : stop.column = start.column := by
  induction pieces generalizing here with
  | nil =>
      cases hwalk
      exact hhere rfl
  | cons piece rest ih =>
      cases piece with
      | embedded info expr => cases hnone
      | text text =>
          have hrest : hasEmbedded rest = false := hnone
          rw [trailing, if_neg (Bool.eq_false_iff.mp hrest), String.join_cons] at hlines hhere
          rw [String.toList_append] at hlines
          refine ih hrest (lastLine_eq_nil_of_append hlines) (fun hempty => ?_) hwalk
          rw [hempty, String.append_empty] at hhere
          rw [hempty, String.toList_empty, List.append_nil] at hlines
          by_cases hbreaks : breakCount text.toList = 0
          · rw [lastLine_eq_self hbreaks, String.toList_eq_nil_iff] at hlines
            rw [afterText_of_unbroken hbreaks, hlines, String.length_empty, Position.advance_zero]
            exact hhere hlines
          · rw [afterText, if_neg hbreaks, hlines]
            rfl

/-! ### Closing delimiters -/

theorem length_of_isTriple {delimiter : String} (h : isTriple delimiter = true) :
    delimiter.length = 3 := by
  rw [isTriple, Bool.or_eq_true, beq_iff_eq, beq_iff_eq] at h
  rcases h with rfl | rfl <;> rfl

theorem isTriple_singleton (d : Char) : isTriple (String.singleton d) = false := by
  refine Bool.eq_false_iff.mpr fun htriple => ?_
  have hlength := length_of_isTriple htriple
  rw [String.length_singleton] at hlength
  cases hlength

/-- The stop of an interpolated literal, from where the walk over its pieces ends. -/
theorem interpolationStop_eq {pieces : List Piece} {delimiter : String} {start here : Position}
    (hwalk : walk start start pieces = .ok here) :
    interpolationStop pieces delimiter start = .ok
      (if hasEmbedded pieces then
        if isTriple delimiter then here.behind delimiter.length else here.advance 1
      else here.advance 2) := by
  rw [interpolationStop, hwalk]
  split_ifs <;> rfl

/-- A stop that is too far right by the columns in front of a literal is right exactly if there are
none. -/
theorem offset?_iff_runsOn {start q here : Position} {pieces : List Piece} (hq : q.IsAt src j)
    (hruns : RunsOn pieces → here = q)
    (hbroken : ¬RunsOn pieces → here = q.advance (start.column - 1)) (width : Nat) :
    (here.advance width).offset? src = some (j + width) ↔ RunsOn pieces ∨ start.column = 1 := by
  have hpos := start.column_pos
  by_cases hrunsOn : RunsOn pieces
  · rw [hruns hrunsOn, Position.offset?_advance hq.2]
    simp only [hrunsOn, true_or]
  · rw [hbroken hrunsOn, Position.offset?_advance (Position.offset?_advance hq.2 _),
      Option.some.injEq]
    simp only [hrunsOn, false_or]
    omega

/-- A position on an earlier line, in the same column or in front of it, has a smaller offset. -/
theorem Position.offset_lt_of_line_lt {p q : Position} {a b : Nat} (hline : p.line < q.line)
    (hcolumn : p.column ≤ q.column) (hp : p.offset? src = some a) (hq : q.offset? src = some b) :
    a < b := by
  obtain ⟨base, hbase, rfl⟩ := Option.map_eq_some_iff.mp hp
  obtain ⟨base', hbase', rfl⟩ := Option.map_eq_some_iff.mp hq
  obtain ⟨hindex, rfl⟩ := List.getElem?_eq_some_iff.mp hbase
  obtain ⟨hindex', rfl⟩ := List.getElem?_eq_some_iff.mp hbase'
  have hpos := p.line_pos
  have hless := List.pairwise_iff_getElem.mp (pairwise_offsetsAfter 0 src) (p.line - 1) (q.line - 1)
    hindex hindex' (by omega)
  exact Nat.add_lt_add_of_lt_of_le hless (Nat.sub_le_sub_right hcolumn 1)

end SourceSpan
