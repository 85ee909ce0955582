import Mathlib.Data.List.Chain
import SourceSpan.Proofs.RoundTrip

/-!
# Interpolated literals in closed form

The walk over the pieces of an interpolated literal forgets everything in front of the last embedded
expression, and the texts behind it count as one text. So the stop of the literal follows from the
brace of that expression, from the text behind it and from the place where the literal opens. The
texts may be cut anywhere but inside of a line ending.

A sigil is measured by the same walk and then moved by the width of its modifiers, except for a
triple-quoted one without expressions: its stop is counted anew from the column of the sigil, and
the modifiers are lost.
-/

namespace SourceSpan

open Layout Text

/-! ### Texts one after the other -/

/-- No line ending is cut in two where one text follows another. Empty texts do not count, since the
texts on both sides of one meet across it. -/
def Uncut (texts : List String) : Prop :=
  (texts.filter (· ≠ "")).IsChain fun front back => Seam front.toList back.toList

instance (texts : List String) : Decidable (Uncut texts) :=
  inferInstanceAs (Decidable (List.IsChain _ _))

/-- A text meets all the texts behind it as it meets the first of them that is not empty. -/
theorem seam_join_iff {text : List Char} {rest : List String} :
    Seam text (String.join rest).toList ↔
      ∀ next ∈ (rest.filter (· ≠ "")).head?, Seam text next.toList := by
  induction rest with
  | nil => exact ⟨fun _ => nofun, fun _ _ => nofun⟩
  | cons next rest ih =>
      by_cases hempty : next = ""
      · rw [List.filter_cons_of_neg (by simpa using hempty), String.join_cons, hempty,
          String.empty_append]
        exact ih
      · have hhead : (String.join (next :: rest)).toList.head? = next.toList.head? := by
          rw [String.join_cons, String.toList_append,
            List.head?_append_of_ne_nil _ (by simpa using hempty)]
        rw [List.filter_cons_of_pos (by simpa using hempty), List.head?_cons, Seam, hhead]
        simp [Seam]

theorem uncut_cons_iff {text : String} {rest : List String} :
    Uncut (text :: rest) ↔ Seam text.toList (String.join rest).toList ∧ Uncut rest := by
  by_cases hempty : text = ""
  · rw [Uncut, List.filter_cons_of_neg (by simpa using hempty), hempty]
    exact ⟨fun h => ⟨seam_nil _, h⟩, fun h => h.2⟩
  · rw [Uncut, List.filter_cons_of_pos (by simpa using hempty), List.isChain_cons, seam_join_iff,
      Uncut]

/-- Taken for themselves, the texts have as many line endings as together, or more: as many exactly
if none is cut in two. -/
theorem breakCount_join (texts : List String) :
    breakCount (String.join texts).toList ≤
        (texts.map fun text => breakCount text.toList).sum ∧
      (breakCount (String.join texts).toList =
        (texts.map fun text => breakCount text.toList).sum ↔ Uncut texts) := by
  induction texts with
  | nil => exact ⟨Nat.le_refl _, fun _ => by decide, fun _ => rfl⟩
  | cons text rest ih =>
      rw [String.join_cons, String.toList_append, List.map_cons, List.sum_cons, uncut_cons_iff]
      by_cases hseam : Seam text.toList (String.join rest).toList
      · have hcount := breakCount_append hseam
        rw [← ih.2]
        simp only [hseam, true_and]
        omega
      · have hcount := breakCount_append_of_not_seam hseam
        simp only [hseam, false_and, iff_false]
        omega

/-! ### The walk -/

theorem line_afterText (start here : Position) (text : String) :
    (afterText start here text).line = here.line + breakCount text.toList := by
  rw [afterText]
  split_ifs with hbreaks
  · rw [hbreaks]
    rfl
  · rfl

theorem column_afterText (start here : Position) (text : String) :
    (afterText start here text).column =
      (if breakCount text.toList = 0 then here.column else start.column) +
        (lastLine text.toList).length := by
  rw [afterText]
  split_ifs <;> rfl

/-- Walking over two texts is walking over what they are together. -/
theorem afterText_append {front back : String} (h : Seam front.toList back.toList)
    (start here : Position) :
    afterText start here (front ++ back) = afterText start (afterText start here front) back := by
  have hcount := breakCount_append h
  have hlast := lastLine_append h
  apply Position.ext
  · rw [line_afterText, line_afterText, line_afterText, String.toList_append]
    omega
  · rw [column_afterText, column_afterText, column_afterText, String.toList_append, hcount, hlast]
    by_cases hback : breakCount back.toList = 0
    · rw [lastLine_eq_self hback, hback, Nat.add_zero, if_pos rfl, if_pos rfl, List.length_append]
      omega
    · rw [if_neg hback, if_neg hback, if_neg (by omega)]

/-- Where an embedded expression is recorded to end. -/
def Piece.brace? : Piece → Option Position
  | .text _ => none
  | .embedded info _ => info.closing

/-- The brace of the last embedded expression. -/
def lastBrace? (pieces : List Piece) : Option Position :=
  (pieces.filterMap Piece.brace?).getLast?

/-- Where the last part of a walk from `here` begins: behind the last brace, if there is one. -/
def resumption (here : Position) (brace : Option Position) : Position :=
  (brace.map (·.advance 1)).getD here

theorem lastBrace?_embedded {info : Metadata} {q : Position} (hclosing : info.closing = some q)
    (expr : Node) (rest : List Piece) :
    lastBrace? (.embedded info expr :: rest) = some ((lastBrace? rest).getD q) := by
  have hbrace : (Piece.embedded info expr).brace? = some q := hclosing
  rw [lastBrace?, List.filterMap_cons_some hbrace, List.getLast?_cons, lastBrace?]

theorem isSome_lastBrace? {pieces : List Piece} (hclosed : pieces.any Piece.isUnclosed = false) :
    (lastBrace? pieces).isSome = hasEmbedded pieces := by
  induction pieces with
  | nil => rfl
  | cons piece rest ih =>
      rw [List.any_cons, Bool.or_eq_false_iff] at hclosed
      cases piece with
      | text text => exact ih hclosed.2
      | embedded info expr =>
          obtain ⟨q, hclosing⟩ := exists_closing hclosed.1
          rw [lastBrace?_embedded hclosing]
          rfl

/-- A walk ends where a walk over the texts behind the last expression does. -/
theorem walk_eq_foldl (start here : Position) {pieces : List Piece}
    (hclosed : pieces.any Piece.isUnclosed = false) :
    walk start here pieces =
      .ok ((trailing pieces).foldl (afterText start) (resumption here (lastBrace? pieces))) := by
  induction pieces generalizing here with
  | nil => rfl
  | cons piece rest ih =>
      rw [List.any_cons, Bool.or_eq_false_iff] at hclosed
      cases piece with
      | text text =>
          have hsome := isSome_lastBrace? hclosed.2
          have hbrace : lastBrace? (.text text :: rest) = lastBrace? rest := rfl
          rw [walk, ih _ hclosed.2, resumption, resumption, hbrace, trailing]
          -- In front of an expression the text is forgotten.
          split_ifs with hmore
          · obtain ⟨q, hq⟩ := Option.isSome_iff_exists.mp (hsome.trans hmore)
            rw [hq]
            rfl
          · have hnone : lastBrace? rest = none := by
              rw [← Option.not_isSome_iff_eq_none, hsome]
              exact hmore
            rw [hnone]
            rfl
      | embedded info expr =>
          obtain ⟨q, hclosing⟩ := exists_closing hclosed.1
          have hresumption : resumption here (lastBrace? (.embedded info expr :: rest)) =
              resumption (q.advance 1) (lastBrace? rest) := by
            rw [resumption, resumption, lastBrace?_embedded hclosing, Option.map_some,
              Option.getD_some, Option.getD_map]
          rw [walk, hclosing, hresumption]
          exact ih (q.advance 1) hclosed.2

theorem line_foldl_afterText (start here : Position) (texts : List String) :
    (texts.foldl (afterText start) here).line =
      here.line + (texts.map fun text => breakCount text.toList).sum := by
  induction texts generalizing here with
  | nil => rfl
  | cons text rest ih =>
      rw [List.foldl_cons, ih, line_afterText, List.map_cons, List.sum_cons, Nat.add_assoc]

/-- Texts that are not cut inside of a line ending are walked over as one text. -/
theorem foldl_afterText (start here : Position) {texts : List String} (huncut : Uncut texts) :
    texts.foldl (afterText start) here = afterText start here (String.join texts) := by
  induction texts generalizing here with
  | nil => rfl
  | cons text rest ih =>
      obtain ⟨hseam, hrest⟩ := uncut_cons_iff.mp huncut
      rw [List.foldl_cons, ih _ hrest, String.join_cons, afterText_append hseam]

/-! ### The stop -/

/-- The stop of a literal that opens at `start`, from the brace of its last expression and the text
behind that. The column is counted from the brace or, behind a line ending, from the opening, except
for a triple delimiter behind an expression, which stands at the start of its line. -/
def referenceStop (delimiter : String) (start : Position) (brace : Option Position)
    (tail : String) : Position where
  line := (resumption start brace).line + breakCount tail.toList
  column :=
    if isTriple delimiter && brace.isSome then delimiter.length + 1
    else
      (if breakCount tail.toList = 0 then (resumption start brace).column else start.column) +
        (lastLine tail.toList).length + if brace.isSome then 1 else 2
  line_pos := Nat.lt_add_right _ (Position.line_pos _)
  column_pos := by
    split_ifs <;> omega

theorem line_referenceStop (delimiter : String) (start : Position) (brace : Option Position)
    (tail : String) : (referenceStop delimiter start brace tail).line =
      (resumption start brace).line + breakCount tail.toList := rfl

/-- The reference stop closes the literal where a walk over the text behind the brace ends. -/
theorem referenceStop_eq (delimiter : String) (start : Position) (brace : Option Position)
    (tail : String) :
    referenceStop delimiter start brace tail =
      if brace.isSome then
        if isTriple delimiter then
          (afterText start (resumption start brace) tail).behind delimiter.length
        else (afterText start (resumption start brace) tail).advance 1
      else (afterText start (resumption start brace) tail).advance 2 := by
  have hline := line_afterText start (resumption start brace) tail
  have hcolumn := column_afterText start (resumption start brace) tail
  apply Position.ext
  · rw [line_referenceStop, ← hline]
    split_ifs <;> rfl
  · show (if isTriple delimiter && brace.isSome then delimiter.length + 1 else _) = _
    rw [← hcolumn]
    cases brace <;> cases isTriple delimiter <;> rfl

theorem interpolationStop_of_uncut (delimiter : String) (start : Position) {pieces : List Piece}
    (hclosed : pieces.any Piece.isUnclosed = false) (huncut : Uncut (trailing pieces)) :
    interpolationStop pieces delimiter start =
      .ok (referenceStop delimiter start (lastBrace? pieces) (String.join (trailing pieces))) := by
  rw [interpolationStop_eq (walk_eq_foldl start start hclosed), foldl_afterText _ _ huncut,
    referenceStop_eq, isSome_lastBrace? hclosed]

/-- The line of a stop tells whether a line ending has been cut in two. -/
theorem uncut_of_interpolationStop {delimiter : String} {start : Position} {pieces : List Piece}
    (hclosed : pieces.any Piece.isUnclosed = false)
    (h : interpolationStop pieces delimiter start =
      .ok (referenceStop delimiter start (lastBrace? pieces) (String.join (trailing pieces)))) :
    Uncut (trailing pieces) := by
  rw [interpolationStop_eq (walk_eq_foldl start start hclosed), Except.ok.injEq] at h
  have hline := congrArg Position.line h
  have hwalk := line_foldl_afterText start (resumption start (lastBrace? pieces)) (trailing pieces)
  have hreference := line_referenceStop delimiter start (lastBrace? pieces)
    (String.join (trailing pieces))
  apply (breakCount_join (trailing pieces)).2.mp
  split_ifs at hline
  all_goals
    simp only [Position.line_behind, Position.line_advance] at hline
    omega

/-- The stop of an interpolated literal is refused exactly if the brace of an expression is not
recorded, and always for that reason. Otherwise it is the reference stop, exactly if no line ending
is cut in two behind the last expression. So two lists of pieces with the same last brace and the
same text behind it have the same stop, whatever stands in front and however the text is cut. -/
theorem interpolationStop_eq_reference (pieces : List Piece) (delimiter : String)
    (start : Position) :
    ((∃ fault, interpolationStop pieces delimiter start = .error fault) ↔
      ∃ info expr, .embedded info expr ∈ pieces ∧ info.closing = none) ∧
    (∀ fault, interpolationStop pieces delimiter start = .error fault →
      fault = .missing "interpolated_expr" .closing) ∧
    (pieces.any Piece.isUnclosed = false →
      (interpolationStop pieces delimiter start =
          .ok (referenceStop delimiter start (lastBrace? pieces) (String.join (trailing pieces))) ↔
        Uncut (trailing pieces)) ∧
      ∀ others : List Piece, others.any Piece.isUnclosed = false →
        Uncut (trailing pieces) → Uncut (trailing others) →
        lastBrace? others = lastBrace? pieces →
        String.join (trailing others) = String.join (trailing pieces) →
        interpolationStop others delimiter start = interpolationStop pieces delimiter start) := by
  refine ⟨⟨?_, ?_⟩, ?_, ?_⟩
  · rintro ⟨fault, hfault⟩
    exact (interpolationStop_eq_error_iff.mp hfault).1
  · intro hunclosed
    exact ⟨_, interpolationStop_eq_error_iff.mpr ⟨hunclosed, rfl⟩⟩
  · intro fault hfault
    exact (interpolationStop_eq_error_iff.mp hfault).2
  · intro hclosed
    refine ⟨⟨uncut_of_interpolationStop hclosed,
      interpolationStop_of_uncut delimiter start hclosed⟩, ?_⟩
    intro others hclosed' huncut huncut' hbrace htail
    rw [interpolationStop_of_uncut delimiter start hclosed huncut,
      interpolationStop_of_uncut delimiter start hclosed' huncut', hbrace, htail]

/-- An expression and a text of three lines behind it, cut into four. -/
def cutMessage : List Piece :=
  [.text "dear ", .embedded { closing := some ⟨2, 1, Nat.two_pos, Nat.one_pos⟩ } (.bare {}),
    .text ",\r", .text "", .text "and ", .text "so\non"]

/-- The message stops where it would stop in one piece. -/
theorem interpolationStop_cutMessage : ∃ stop : Position,
    cutMessage.any Piece.isUnclosed = false ∧ Uncut (trailing cutMessage) ∧
    interpolationStop cutMessage "\"" ⟨1, 2, by decide, by decide⟩ = .ok stop ∧
    stop.line = 4 ∧ stop.column = 5 ∧
    interpolationStop [.embedded { closing := some ⟨2, 1, Nat.two_pos, Nat.one_pos⟩ } (.bare {}),
      .text ",\rand so\non"] "\"" ⟨1, 2, by decide, by decide⟩ = .ok stop := by
  have huncut : Uncut (trailing cutMessage) := by decide
  have hreference := interpolationStop_eq_reference cutMessage "\"" ⟨1, 2, by decide, by decide⟩
  obtain ⟨hstop, hothers⟩ := hreference.2.2 rfl
  refine ⟨_, rfl, huncut, hstop.mpr huncut, by decide, by decide, ?_⟩
  rw [← hstop.mpr huncut]
  exact hothers _ rfl huncut (by decide) rfl (by decide)

/-- A line ending of two characters with an empty text in the middle. -/
def cutEnding : List Piece :=
  [.text "a\r", .text "", .text "\nb"]

/-- Neighbouring texts meet at seams here, and still the line ending is counted twice: the walk takes
each text for itself. -/
theorem interpolationStop_cutEnding :
    (trailing cutEnding).IsChain (fun front back => Seam front.toList back.toList) ∧
    String.join (trailing cutEnding) = "a\r\nb" ∧ lastBrace? cutEnding = none ∧
    ∃ stop : Position,
      interpolationStop cutEnding "\"" ⟨1, 1, by decide, by decide⟩ = .ok stop ∧ stop.line = 3 ∧
      (referenceStop "\"" ⟨1, 1, by decide, by decide⟩ none "a\r\nb").line = 2 := by
  refine ⟨by decide, by decide, rfl, _, rfl, by decide, by decide⟩

/-! ### The modifiers of a sigil -/

/-- The sigil is triple-quoted and holds no expression. -/
def isPlainHeredoc (info : Metadata) (pieces : List Piece) : Bool :=
  info.delimiter.any isTriple && !hasEmbedded pieces

/-- Where a sigil stops with modifiers, from where it stops without any. -/
theorem sigilStop_of_bare {info : Metadata} {pieces : List Piece} {stop : Position}
    (h : sigilStop info pieces "" = .ok stop) (modifiers : String) :
    sigilStop info pieces modifiers =
      .ok (if isPlainHeredoc info pieces then stop else stop.advance modifiers.length) := by
  have hparts := h
  simp only [sigilStop, bind_eq_ok_iff, Metadata.position_eq_ok_iff, need_eq_ok_iff] at hparts
  obtain ⟨start, hplace, delimiter, hdelimiter, bodyStop, hbody, -⟩ := hparts
  rw [sigilStop_eq hplace hdelimiter hbody, String.length_empty, Position.advance_zero,
    Except.ok.injEq] at h
  rw [sigilStop_eq hplace hdelimiter hbody, ← h, isPlainHeredoc, hdelimiter, Option.any_some]
  split_ifs
  · rfl
  · rfl
  · rw [Position.advance_advance, Position.advance_advance, Nat.add_comm]

/-- Modifiers move the stop of a sigil by their own width, unless it is a plain heredoc. The stop of
a plain heredoc is not moved by any. -/
theorem sigilStop_modifiers_iff {info : Metadata} {pieces : List Piece} {stop : Position}
    (h : sigilStop info pieces "" = .ok stop) (modifiers : String) :
    (sigilStop info pieces modifiers = .ok (stop.advance modifiers.length) ↔
      isPlainHeredoc info pieces = false ∨ modifiers = "") ∧
    (isPlainHeredoc info pieces = true → sigilStop info pieces modifiers = .ok stop) := by
  rw [sigilStop_of_bare h modifiers]
  cases isPlainHeredoc info pieces with
  | false => simp
  | true =>
      refine ⟨?_, fun _ => rfl⟩
      rw [if_pos rfl, Except.ok.injEq, eq_comm, Position.advance_eq_self_iff,
        String.length_eq_zero_iff]
      simp

/-- What is recorded about a heredoc in the fifth column. -/
def heredocInfo : Metadata where
  line := some 1
  column := some 5
  delimiter := some "\"\"\""

/-- Behind an expression the modifiers of a heredoc count. -/
theorem sigilStop_heredocModifiers : ∃ stop : Position,
    sigilStop heredocInfo [.text "a ",
      .embedded { closing := some ⟨2, 6, by decide, by decide⟩ } (.bare {}), .text "\n"] "" =
        .ok stop ∧
    sigilStop heredocInfo [.text "a ",
      .embedded { closing := some ⟨2, 6, by decide, by decide⟩ } (.bare {}), .text "\n"] "im" =
        .ok (stop.advance 2) := by
  obtain ⟨stop, hstop⟩ : ∃ stop, sigilStop heredocInfo [.text "a ",
      .embedded { closing := some ⟨2, 6, by decide, by decide⟩ } (.bare {}), .text "\n"] "" =
        .ok stop := ⟨_, rfl⟩
  exact ⟨stop, hstop, (sigilStop_modifiers_iff hstop "im").1.mpr (.inl (by decide))⟩

/-- Without an expression a heredoc stops in front of its modifiers. -/
theorem sigilStop_plainHeredoc : ∃ stop : Position,
    sigilStop heredocInfo [.text "foo\n"] "" = .ok stop ∧
    sigilStop heredocInfo [.text "foo\n"] "i" = .ok stop ∧ stop ≠ stop.advance 1 := by
  refine ⟨_, rfl, rfl, by decide⟩

end SourceSpan
