import Mathlib.Data.List.Basic
import SourceSpan.Span

/-!
# Positions and offsets

A text can be cut anywhere except between a carriage return and the line feed that belongs to it.
Such a cut is a seam. The lines of two texts that meet at a seam are the lines of the first, the
last of them continued by the first line of the second, and then the other lines of the second. So
the position behind a text does not depend on what follows, and the positions that lie inside of a
text are exactly those behind one of its beginnings.
-/

namespace SourceSpan

namespace Text

/-- The line endings of two texts are still endings when the texts are put together. -/
def Seam (front back : List Char) : Prop :=
  front.getLast? = some '\r' → back.head? ≠ some '\n'

instance (front back : List Char) : Decidable (Seam front back) :=
  inferInstanceAs (Decidable (_ → _))

theorem seam_nil (back : List Char) : Seam [] back := nofun

/-- Only the end of the first text matters. -/
theorem Seam.of_append (front : List Char) {middle back : List Char}
    (h : Seam (front ++ middle) back) : Seam middle back := by
  intro hlast
  exact h (by rw [List.getLast?_append, hlast]; rfl)

/-- Only the beginning of the second text matters. -/
theorem Seam.left {front middle back : List Char} (h : Seam front (middle ++ back)) :
    Seam front middle := by
  cases middle with
  | nil => exact fun _ => nofun
  | cons c middle => exact h

theorem Seam.cons {c : Char} {front back : List Char} (h : Seam front back) (hc : c ≠ '\r') :
    Seam (c :: front) back := by
  cases front with
  | nil =>
      intro hlast
      exact absurd (Option.some.inj hlast) hc
  | cons d front =>
      intro hlast
      exact h (by rw [← hlast, List.getLast?_cons_cons])

theorem Seam.append (front : List Char) {middle back : List Char} (h : Seam middle back)
    (hne : middle ≠ []) : Seam (front ++ middle) back := by
  intro hlast
  rw [List.getLast?_append_of_ne_nil front hne] at hlast
  exact h hlast

/-! ### Line endings -/

/-- A line ending in front of a text. A carriage return stands alone if no line feed follows it. -/
inductive Ending : List Char → List Char → Prop
  | crlf (rest : List Char) : Ending ['\r', '\n'] rest
  | cr {rest : List Char} (h : rest.head? ≠ some '\n') : Ending ['\r'] rest
  | lf (rest : List Char) : Ending ['\n'] rest

theorem Ending.append {ending rest back : List Char} (h : Ending ending rest)
    (hseam : Seam (ending ++ rest) back) : Ending ending (rest ++ back) := by
  cases h with
  | crlf => exact .crlf _
  | lf => exact .lf _
  | cr h =>
      refine .cr ?_
      cases rest with
      | nil => exact hseam rfl
      | cons c rest => exact h

theorem Ending.left {ending front back : List Char} (h : Ending ending (front ++ back)) :
    Ending ending front := by
  cases h with
  | crlf => exact .crlf _
  | lf => exact .lf _
  | cr h =>
      refine .cr fun hhead => h ?_
      rw [List.head?_append, hhead]
      rfl

theorem Ending.seam {ending front back : List Char} (h : Ending ending (front ++ back))
    (hseam : Seam front back) : Seam (ending ++ front) back := by
  intro hlast
  rw [List.getLast?_append] at hlast
  cases hfront : front.getLast? with
  | some c =>
      rw [hfront] at hlast
      exact hseam (hfront.trans hlast)
  | none =>
      rw [List.getLast?_eq_none_iff.mp hfront] at h hlast
      cases h with
      | crlf => simp at hlast
      | lf => simp at hlast
      | cr h => exact h

/-- A text is read from the left, one character or one line ending at a time. -/
theorem reading {motive : List Char → Prop} (nil : motive [])
    (ending : ∀ ending rest, Ending ending rest → motive rest → motive (ending ++ rest))
    (char : ∀ c rest, c ≠ '\r' → c ≠ '\n' → motive rest → motive (c :: rest)) (text : List Char) :
    motive text := by
  fun_induction lines text with
  | case1 => exact nil
  | case2 rest ih => exact ending _ rest (.crlf rest) ih
  | case3 rest hne ih =>
      refine ending _ rest (.cr fun hhead => ?_) ih
      cases rest with
      | nil => cases hhead
      | cons c rest =>
          cases hhead
          exact hne rest rfl
  | case4 rest ih => exact ending _ rest (.lf rest) ih
  | case5 c rest hcrlf hcr hlf ih => exact char c rest hcr hlf ih

theorem lines_ending {ending rest : List Char} (h : Ending ending rest) :
    lines (ending ++ rest) = [] :: lines rest := by
  cases h with
  | crlf => rfl
  | lf => rfl
  | cr h =>
      rw [List.singleton_append, lines]
      rintro _ rfl
      exact h rfl

theorem lines_char {c : Char} (hcr : c ≠ '\r') (hlf : c ≠ '\n') (rest : List Char) :
    lines (c :: rest) = consFirst c (lines rest) := by
  rw [lines] <;> simp_all

theorem offsetsAfter_ending {ending rest : List Char} (h : Ending ending rest) (base : Nat) :
    offsetsAfter base (ending ++ rest) =
      (base + ending.length) :: offsetsAfter (base + ending.length) rest := by
  cases h with
  | crlf => rfl
  | lf => rfl
  | cr h =>
      rw [List.singleton_append, offsetsAfter]
      · rfl
      · rintro _ rfl
        exact h rfl

theorem offsetsAfter_char {c : Char} (hcr : c ≠ '\r') (hlf : c ≠ '\n') (base : Nat)
    (rest : List Char) : offsetsAfter base (c :: rest) = offsetsAfter (base + 1) rest := by
  rw [offsetsAfter] <;> simp_all

theorem length_lines (text : List Char) : (lines text).length = breakCount text + 1 := by
  have hpos := List.length_pos_of_ne_nil (lines_ne_nil text)
  rw [breakCount]
  omega

theorem lines_of_breakCount_ne_zero {text : List Char} (h : breakCount text ≠ 0) :
    ∃ line next others, lines text = line :: next :: others := by
  have hlength := length_lines text
  rcases hlines : lines text with _ | ⟨line, _ | ⟨next, others⟩⟩
  · exact absurd hlines (lines_ne_nil text)
  · rw [hlines, List.length_singleton] at hlength
    omega
  · exact ⟨line, next, others, rfl⟩

theorem breakCount_ending {ending rest : List Char} (h : Ending ending rest) :
    breakCount (ending ++ rest) = breakCount rest + 1 := by
  rw [breakCount, lines_ending h, List.length_cons, length_lines, Nat.add_sub_cancel]

theorem lastLine_ending {ending rest : List Char} (h : Ending ending rest) :
    lastLine (ending ++ rest) = lastLine rest := by
  rw [lastLine, lines_ending h, List.getLastD_cons, lastLine]

theorem breakCount_char {c : Char} (hcr : c ≠ '\r') (hlf : c ≠ '\n') (rest : List Char) :
    breakCount (c :: rest) = breakCount rest := by
  rw [breakCount, lines_char hcr hlf, length_consFirst (lines_ne_nil rest), breakCount]

theorem lines_eq_singleton {text : List Char} (h : breakCount text = 0) : lines text = [text] := by
  induction text using reading with
  | nil => rfl
  | ending ending rest hending ih =>
      rw [breakCount_ending hending] at h
      cases h
  | char c rest hcr hlf ih =>
      rw [breakCount_char hcr hlf] at h
      rw [lines_char hcr hlf, ih h]
      rfl

theorem lastLine_eq_self {text : List Char} (h : breakCount text = 0) : lastLine text = text := by
  rw [lastLine, lines_eq_singleton h]
  rfl

theorem lastLine_char {c : Char} (hcr : c ≠ '\r') (hlf : c ≠ '\n') (rest : List Char) :
    lastLine (c :: rest) = if breakCount rest = 0 then c :: rest else lastLine rest := by
  split_ifs with hbreaks
  · exact lastLine_eq_self (by rw [breakCount_char hcr hlf, hbreaks])
  · obtain ⟨line, next, others, hlines⟩ := lines_of_breakCount_ne_zero hbreaks
    rw [lastLine, lastLine, lines_char hcr hlf, hlines]
    rfl

/-! ### Texts that meet at a seam -/

theorem seam_of_unbroken_left {front : List Char} (h : breakCount front = 0) (back : List Char) :
    Seam front back := by
  induction front using reading with
  | nil => exact seam_nil back
  | ending ending rest hending ih =>
      rw [breakCount_ending hending] at h
      cases h
  | char c rest hcr hlf ih =>
      rw [breakCount_char hcr hlf] at h
      exact (ih h).cons hcr

theorem seam_of_unbroken_right {middle : List Char} (h : breakCount middle = 0) (hne : middle ≠ [])
    (front back : List Char) : Seam front (middle ++ back) := by
  obtain ⟨c, rest, rfl⟩ := List.exists_cons_of_ne_nil hne
  intro _ hhead
  cases hhead
  have hbreaks : breakCount ('\n' :: rest) = breakCount rest + 1 := breakCount_ending (.lf rest)
  omega

theorem consFirst_eq_modifyHead {lines : List (List Char)} (h : lines ≠ []) (c : Char) :
    consFirst c lines = lines.modifyHead (c :: ·) := by
  cases lines with
  | nil => exact absurd rfl h
  | cons line rest => rfl

/-- The lines of two texts that meet at a seam: the last line of the first text is continued by the
first line of the second. -/
theorem lines_append {front back : List Char} (hseam : Seam front back) :
    lines (front ++ back) =
      (lines front).dropLast ++ (lines back).modifyHead (lastLine front ++ ·) := by
  induction front using reading with
  | nil =>
      obtain ⟨line, others, hlines⟩ := List.exists_cons_of_ne_nil (lines_ne_nil back)
      rw [List.nil_append, hlines]
      rfl
  | ending ending rest hending ih =>
      rw [List.append_assoc, lines_ending (hending.append hseam), lines_ending hending,
        lastLine_ending hending, List.dropLast_cons_of_ne_nil (lines_ne_nil rest),
        ih (hseam.of_append ending), List.cons_append]
  | char c rest hcr hlf ih =>
      have hrest := ih (hseam.of_append [c])
      rw [List.cons_append, lines_char hcr hlf, consFirst_eq_modifyHead (lines_ne_nil _), hrest,
        lastLine_char hcr hlf, lines_char hcr hlf, consFirst_eq_modifyHead (lines_ne_nil rest)]
      -- The character belongs to the line that is continued only if there is no other.
      split_ifs with hbreaks
      · obtain ⟨line, others, hlines⟩ := List.exists_cons_of_ne_nil (lines_ne_nil back)
        rw [lines_eq_singleton hbreaks, lastLine_eq_self hbreaks, hlines]
        rfl
      · obtain ⟨line, next, others, hlines⟩ := lines_of_breakCount_ne_zero hbreaks
        rw [hlines]
        rfl

theorem lastLine_eq_getLast (text : List Char) :
    lastLine text = (lines text).getLast (lines_ne_nil text) := by
  rw [lastLine, List.getLastD_eq_getLast?, List.getLast?_eq_some_getLast (lines_ne_nil text),
    Option.getD_some]

theorem dropLast_append_lastLine (text : List Char) :
    (lines text).dropLast ++ [lastLine text] = lines text := by
  rw [lastLine_eq_getLast, List.dropLast_concat_getLast]

/-- A line ending behind a text ends its last line. -/
theorem lines_append_ending {front ending rest : List Char} (hseam : Seam front (ending ++ rest))
    (h : Ending ending rest) : lines (front ++ (ending ++ rest)) = lines front ++ lines rest := by
  rw [lines_append hseam, lines_ending h, List.modifyHead_cons, List.append_nil, List.append_cons,
    dropLast_append_lastLine]

theorem length_dropLast_lines (text : List Char) :
    (lines text).dropLast.length = breakCount text := by
  rw [List.length_dropLast, breakCount]

theorem breakCount_append {front back : List Char} (hseam : Seam front back) :
    breakCount (front ++ back) = breakCount front + breakCount back := by
  have hback := length_lines back
  rw [breakCount, lines_append hseam, List.length_append, length_dropLast_lines,
    List.length_modifyHead]
  omega

theorem lastLine_append {front back : List Char} (hseam : Seam front back) :
    lastLine (front ++ back) =
      if breakCount back = 0 then lastLine front ++ back else lastLine back := by
  rw [lastLine, lines_append hseam]
  split_ifs with hbreaks
  · rw [lines_eq_singleton hbreaks, List.modifyHead_cons, List.getLastD_concat]
  · obtain ⟨line, next, others, hlines⟩ := lines_of_breakCount_ne_zero hbreaks
    have hback : lastLine back = (line :: next :: others).getLastD [] := by
      rw [lastLine, hlines]
    rw [hback, hlines, List.modifyHead_cons, List.getLastD_eq_getLast?,
      List.getLast?_append_of_ne_nil _ (List.cons_ne_nil _ _), List.getLast?_cons_cons,
      List.getLastD_eq_getLast?, List.getLast?_cons_cons]

/-- The line that the end of the first text lies in has room for that end. -/
theorem getElem?_lines_append {front back : List Char} (hseam : Seam front back) :
    ∃ line, (lines (front ++ back))[breakCount front]? = some line ∧
      (lastLine front).length ≤ line.length := by
  obtain ⟨line, others, hlines⟩ := List.exists_cons_of_ne_nil (lines_ne_nil back)
  refine ⟨lastLine front ++ line, ?_, ?_⟩
  · rw [lines_append hseam, hlines, List.modifyHead_cons, ← length_dropLast_lines front,
      List.getElem?_append_right (Nat.le_refl _), Nat.sub_self, List.getElem?_cons_zero]
  · rw [List.length_append]
    omega

/-- The line that the end of the first text lies in starts as many characters before that end as
the last line of the text has. -/
theorem getElem?_offsetsAfter_append {front back : List Char} (hseam : Seam front back)
    (base : Nat) : ∃ offset, (base :: offsetsAfter base (front ++ back))[breakCount front]? =
      some offset ∧ offset + (lastLine front).length = base + front.length := by
  induction front using reading generalizing base with
  | nil => exact ⟨base, rfl, rfl⟩
  | ending ending rest hending ih =>
      obtain ⟨offset, hoffset, hlength⟩ := ih (hseam.of_append ending) (base + ending.length)
      refine ⟨offset, ?_, ?_⟩
      · rw [List.append_assoc, offsetsAfter_ending (hending.append hseam),
          breakCount_ending hending, List.getElem?_cons_succ, hoffset]
      · rw [lastLine_ending hending, hlength, List.length_append, Nat.add_assoc]
  | char c rest hcr hlf ih =>
      obtain ⟨offset, hoffset, hlength⟩ := ih (hseam.of_append [c]) (base + 1)
      rw [List.cons_append, offsetsAfter_char hcr hlf, breakCount_char hcr hlf,
        lastLine_char hcr hlf]
      split_ifs with hbreaks
      · exact ⟨base, by rw [hbreaks]; rfl, rfl⟩
      · obtain ⟨n, hn⟩ := Nat.exists_eq_succ_of_ne_zero hbreaks
        rw [hn] at hoffset ⊢
        exact ⟨offset, hoffset, by rw [hlength, List.length_cons]; omega⟩

/-- Every place in a line is the end of a beginning of the text. -/
theorem exists_seam {text line : List Char} {n width : Nat} (hline : (lines text)[n]? = some line)
    (hwidth : width ≤ line.length) : ∃ front back, text = front ++ back ∧ Seam front back ∧
      breakCount front = n ∧ (lastLine front).length = width := by
  induction text using reading generalizing n width line with
  | nil =>
      cases n with
      | zero =>
          cases hline
          exact ⟨[], [], rfl, seam_nil _, rfl, (Nat.le_zero.mp hwidth).symm⟩
      | succ n => cases hline
  | ending ending rest hending ih =>
      rw [lines_ending hending] at hline
      cases n with
      | zero =>
          cases hline
          exact ⟨[], _, rfl, seam_nil _, rfl, (Nat.le_zero.mp hwidth).symm⟩
      | succ n =>
          obtain ⟨front, back, rfl, hseam, rfl, rfl⟩ := ih hline hwidth
          refine ⟨ending ++ front, back, (List.append_assoc ..).symm, hending.seam hseam, ?_, ?_⟩
          · rw [breakCount_ending hending.left]
          · rw [lastLine_ending hending.left]
  | char c rest hcr hlf ih =>
      obtain ⟨first, others, hlines⟩ := List.exists_cons_of_ne_nil (lines_ne_nil rest)
      rw [lines_char hcr hlf, hlines] at hline
      rw [hlines] at ih
      -- Only in the first line does the character add to the width in front of the place.
      cases n with
      | succ n =>
          have hline : (first :: others)[n + 1]? = some line := hline
          obtain ⟨front, back, rfl, hseam, hbreaks, rfl⟩ := ih hline hwidth
          refine ⟨c :: front, back, rfl, hseam.cons hcr, ?_, ?_⟩
          · rw [breakCount_char hcr hlf, hbreaks]
          · rw [lastLine_char hcr hlf, if_neg (by omega)]
      | zero =>
          cases hline
          cases width with
          | zero => exact ⟨[], _, rfl, seam_nil _, rfl, rfl⟩
          | succ width =>
              obtain ⟨front, back, rfl, hseam, hbreaks, rfl⟩ :=
                ih (n := 0) rfl (Nat.le_of_succ_le_succ hwidth)
              refine ⟨c :: front, back, rfl, hseam.cons hcr, ?_, ?_⟩
              · rw [breakCount_char hcr hlf, hbreaks]
              · rw [lastLine_char hcr hlf, if_pos hbreaks, lastLine_eq_self hbreaks,
                  List.length_cons]

/-! ### Texts that cut a line ending in two -/

theorem exists_of_not_seam {front back : List Char} (h : ¬Seam front back) :
    ∃ line rest, front = line ++ ['\r'] ∧ back = '\n' :: rest := by
  obtain ⟨hlast, hhead⟩ : front.getLast? = some '\r' ∧ back.head? = some '\n' := by
    rwa [Seam, Classical.not_imp, Ne, Classical.not_not] at h
  obtain ⟨line, rfl⟩ := List.getLast?_eq_some_iff.mp hlast
  obtain ⟨rest, rfl⟩ := List.head?_eq_some_iff.mp hhead
  exact ⟨line, rest, rfl, rfl⟩

/-- The two halves of a line ending stand beside an empty line each, and these two lines are gone
when the halves meet. -/
theorem lines_append_of_not_seam {front back : List Char} (h : ¬Seam front back) :
    lines (front ++ back) = (lines front).dropLast ++ (lines back).tail ∧
      lastLine front = [] ∧ (lines back).head (lines_ne_nil back) = [] := by
  obtain ⟨line, rest, rfl, rfl⟩ := exists_of_not_seam h
  have hseam (rest : List Char) : Seam line ('\r' :: rest) := fun _ => by simp
  have hfront : lines (line ++ ['\r']) = lines line ++ [[]] :=
    lines_append_ending (hseam []) (.cr nofun)
  have hback : lines ('\n' :: rest) = [] :: lines rest := lines_ending (.lf rest)
  have hwhole : lines (line ++ '\r' :: '\n' :: rest) = lines line ++ lines rest :=
    lines_append_ending (hseam _) (.crlf rest)
  refine ⟨?_, ?_, rfl⟩
  · rw [List.append_assoc, List.singleton_append, hwhole, hfront, hback, List.dropLast_concat,
      List.tail_cons]
  · rw [lastLine, hfront, List.getLastD_concat]

/-- A text that ends with a line ending does so whatever stands in front of its last part. -/
theorem lastLine_eq_nil_of_append {front back : List Char} (h : lastLine (front ++ back) = []) :
    lastLine back = [] := by
  by_cases hseam : Seam front back
  · rw [lastLine_append hseam] at h
    split_ifs at h
    · rw [(List.append_eq_nil_iff.mp h).2]
      rfl
    · exact h
  · have hlines := (lines_append_of_not_seam hseam).1
    obtain ⟨line, rest, rfl, rfl⟩ := exists_of_not_seam hseam
    have hback : lines ('\n' :: rest) = [] :: lines rest := lines_ending (.lf rest)
    rw [lastLine, hlines, hback, List.tail_cons, List.getLastD_eq_getLast?,
      List.getLast?_append_of_ne_nil _ (lines_ne_nil rest)] at h
    rw [lastLine, hback, List.getLastD_cons, List.getLastD_eq_getLast?]
    exact h

/-- A line ending that is cut in two counts once. -/
theorem breakCount_append_of_not_seam {front back : List Char} (h : ¬Seam front back) :
    breakCount (front ++ back) + 1 = breakCount front + breakCount back := by
  rw [← length_lines, (lines_append_of_not_seam h).1, List.length_append, length_dropLast_lines,
    List.length_tail]
  rfl

end Text

open Text

/-! ### Positions -/

namespace Position

theorem ext {p q : Position} (hline : p.line = q.line) (hcolumn : p.column = q.column) : p = q := by
  cases p
  cases q
  cases hline
  cases hcolumn
  rfl

/-- The position behind a text that stands at the beginning. -/
def after (text : List Char) : Position :=
  ⟨breakCount text + 1, (lastLine text).length + 1, Nat.succ_pos _, Nat.succ_pos _⟩

/-- The position lies inside of a text, at most just behind the end of its line, and `offset`
characters stand before it. -/
def IsAt (p : Position) (text : List Char) (offset : Nat) : Prop :=
  (∃ line, (lines text)[p.line - 1]? = some line ∧ p.column ≤ line.length + 1) ∧
    p.offset? text = some offset

/-- Moving along the line moves the offset. -/
theorem offset?_advance {p : Position} {text : List Char} {offset : Nat}
    (h : p.offset? text = some offset) (width : Nat) :
    (p.advance width).offset? text = some (offset + width) := by
  obtain ⟨base, hbase, rfl⟩ := Option.map_eq_some_iff.mp h
  have hpos := p.column_pos
  rw [offset?, line_advance, hbase, Option.map_some, column_advance, Option.some.injEq]
  omega

theorem offset?_advance_iff {p : Position} {text : List Char} {offset width : Nat} :
    (p.advance width).offset? text = some (offset + width) ↔ p.offset? text = some offset := by
  have hpos := p.column_pos
  rw [offset?, offset?, line_advance, column_advance, Option.map_eq_some_iff,
    Option.map_eq_some_iff]
  refine exists_congr fun base => and_congr_right fun _ => ?_
  omega

theorem offset?_after {front back : List Char} (hseam : Seam front back) :
    (after front).offset? (front ++ back) = some front.length := by
  obtain ⟨offset, hoffset, hlength⟩ := getElem?_offsetsAfter_append hseam 0
  rw [offset?, lineOffsets]
  change ((0 :: offsetsAfter 0 (front ++ back))[breakCount front]?.map
    (· + (lastLine front).length)) = _
  rw [hoffset, Option.map_some, hlength, Nat.zero_add]

/-- Behind the first half of a line ending that is cut in two, the position is that behind the whole
ending. -/
theorem offset?_after_of_not_seam {front back : List Char} (h : ¬Seam front back) :
    (after front).offset? (front ++ back) = some (front.length + 1) := by
  obtain ⟨line, rest, rfl, rfl⟩ := exists_of_not_seam h
  have hcr : ¬Seam (line ++ ['\r']) ['\n'] := fun hseam =>
    hseam (List.getLast?_eq_some_iff.mpr ⟨line, rfl⟩) rfl
  obtain ⟨hlines, hlast, -⟩ := lines_append_of_not_seam hcr
  have hcount := breakCount_append_of_not_seam hcr
  have hafter : after (line ++ ['\r']) = after (line ++ ['\r'] ++ ['\n']) := by
    refine ext ?_ ?_
    · exact congrArg (· + 1) (Nat.add_right_cancel hcount).symm
    · change (lastLine (line ++ ['\r'])).length + 1 = ((lines _).getLastD []).length + 1
      have htail : (lines ['\n']).tail = [[]] := rfl
      rw [hlast, hlines, htail, List.getLastD_concat]
  have hseam : Seam (line ++ ['\r'] ++ ['\n']) rest := by simp [Seam]
  have hoffset := offset?_after hseam
  rw [← hafter, List.append_assoc, List.singleton_append, List.length_append] at hoffset
  exact hoffset

/-- The positions inside of a text are those behind its beginnings. -/
theorem isAt_iff {p : Position} {text : List Char} {offset : Nat} :
    p.IsAt text offset ↔ ∃ front back, text = front ++ back ∧ Seam front back ∧
      p = after front ∧ front.length = offset := by
  constructor
  · rintro ⟨⟨line, hline, hcolumn⟩, hoffset⟩
    have hlinePos := p.line_pos
    have hcolumnPos := p.column_pos
    obtain ⟨front, back, rfl, hseam, hbreaks, hwidth⟩ :=
      exists_seam hline (Nat.sub_le_iff_le_add.mpr hcolumn)
    have hp : p = after front := by
      refine ext ?_ ?_
      · change p.line = breakCount front + 1
        omega
      · change p.column = (lastLine front).length + 1
        omega
    -- The offset of the place is already known from the other direction.
    refine ⟨front, back, rfl, hseam, hp, ?_⟩
    rw [hp, offset?_after hseam] at hoffset
    exact Option.some.inj hoffset
  · rintro ⟨front, back, rfl, hseam, rfl, rfl⟩
    obtain ⟨line, hline, hle⟩ := getElem?_lines_append hseam
    exact ⟨⟨line, hline, Nat.succ_le_succ hle⟩, offset?_after hseam⟩

/-- The position behind two texts that meet at a seam. -/
theorem after_append {front back : List Char} (hseam : Seam front back) :
    after (front ++ back) =
      if breakCount back = 0 then (after front).advance back.length
      else (after front).below (after []) (breakCount back) (lastLine back).length := by
  have hcount := breakCount_append hseam
  have hlast := lastLine_append hseam
  split_ifs at hlast ⊢ with hbreaks
  · refine ext ?_ ?_
    · change breakCount (front ++ back) + 1 = breakCount front + 1
      omega
    · change (lastLine (front ++ back)).length + 1 = (lastLine front).length + 1 + back.length
      rw [hlast, List.length_append]
      omega
  · refine ext ?_ ?_
    · change breakCount (front ++ back) + 1 = breakCount front + 1 + breakCount back
      omega
    · change (lastLine (front ++ back)).length + 1 = 1 + (lastLine back).length
      rw [hlast]
      omega

end Position

end SourceSpan
