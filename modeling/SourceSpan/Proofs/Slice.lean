import SourceSpan.Operand
import SourceSpan.Proofs.Containment

/-!
# Slices of a text

A span between two positions inside of a text cuts the text in three, before its start and at its
stop, and neither cut goes through a line ending. So the lines of the middle part can be read off
the lines of the whole text, without looking at the endings between them.

Positions inside of a text are in the same order as the characters that they stand in front of.
What spans cover can therefore be put together from what smaller spans cover, and a span inside of
another one covers a part of its text.
-/

namespace SourceSpan

open Text

/-! ### The lines of a part -/

namespace Text

variable {front back : List Char}

/-- The beginning of a text has the first lines of the text, the last one of them cut. -/
theorem lines_front (hseam : Seam front back) :
    lines front = ((lines (front ++ back)).take (breakCount front + 1)).modify (breakCount front)
      (·.take (lastLine front).length) := by
  obtain ⟨line, others, hlines⟩ := List.exists_cons_of_ne_nil (lines_ne_nil back)
  rw [lines_append hseam, hlines, List.modifyHead_cons, ← length_dropLast_lines front,
    List.take_length_add_append, List.modify_eq_take_drop, List.take_left, List.drop_left,
    List.take_succ_cons, List.take_zero, List.modifyHead_cons, List.take_left]
  exact (dropLast_append_lastLine front).symm

/-- What follows has the other lines, the first one of them without its beginning. -/
theorem lines_back (hseam : Seam front back) :
    lines back = ((lines (front ++ back)).drop (breakCount front)).modifyHead
      (·.drop (lastLine front).length) := by
  obtain ⟨line, others, hlines⟩ := List.exists_cons_of_ne_nil (lines_ne_nil back)
  rw [lines_append hseam, hlines, ← length_dropLast_lines front, List.drop_left,
    List.modifyHead_cons, List.modifyHead_cons, List.drop_left]

end Text

/-! ### The order of positions and offsets -/

namespace Position

variable {p q : Position} {text : List Char} {a b : Nat}

/-- The position lies inside of a text, at most just behind the end of its line. -/
def Inside (p : Position) (text : List Char) : Prop :=
  ∃ line, (lines text)[p.line - 1]? = some line ∧ p.column ≤ line.length + 1

theorem offset?_eq_none_iff : p.offset? text = none ↔ (lines text).length < p.line := by
  have hpos := p.line_pos
  rw [offset?, Option.map_eq_none_iff, List.getElem?_eq_none_iff, length_lineOffsets]
  omega

theorem Inside.exists_isAt (h : p.Inside text) : ∃ offset, p.IsAt text offset := by
  cases hoffset : p.offset? text with
  | some offset => exact ⟨offset, h, hoffset⟩
  | none =>
      obtain ⟨line, hline, -⟩ := h
      have hbound := (List.getElem?_eq_some_iff.mp hline).1
      rw [offset?_eq_none_iff] at hoffset
      omega

theorem after_lt_after_append {front middle : List Char} (hseam : Seam front middle)
    (hne : middle ≠ []) : after front < after (front ++ middle) := by
  have hlength := List.length_pos_of_ne_nil hne
  rw [after_append hseam, lt_iff]
  split_ifs with hbreaks
  · right
    rw [line_advance, column_advance]
    omega
  · left
    rw [line_below]
    omega

theorem IsAt.lt_of_lt (hp : p.IsAt text a) (hq : q.IsAt text b) (h : a < b) : p < q := by
  obtain ⟨front, back, rfl, hseam, rfl, rfl⟩ := isAt_iff.mp hp
  obtain ⟨front', back', htext, -, rfl, rfl⟩ := isAt_iff.mp hq
  rcases List.append_eq_append_iff.mp htext with ⟨middle, rfl, rfl⟩ | ⟨middle, rfl, -⟩
  · apply after_lt_after_append hseam.left
    rintro rfl
    rw [List.append_nil] at h
    omega
  · rw [List.length_append] at h
    omega

theorem IsAt.eq_of_eq (hp : p.IsAt text a) (hq : q.IsAt text a) : p = q := by
  obtain ⟨front, back, rfl, -, rfl, hlength⟩ := isAt_iff.mp hp
  obtain ⟨front', back', htext, -, rfl, hlength'⟩ := isAt_iff.mp hq
  obtain ⟨rfl, -⟩ := List.append_inj htext (hlength.trans hlength'.symm)
  rfl

/-- Counting lines and columns and counting characters give the same order. -/
theorem IsAt.lt_iff_lt (hp : p.IsAt text a) (hq : q.IsAt text b) : p < q ↔ a < b := by
  refine ⟨fun hlt => ?_, hp.lt_of_lt hq⟩
  rw [lt_iff] at hlt
  rcases Nat.lt_trichotomy a b with hab | rfl | hba
  · exact hab
  · cases hp.eq_of_eq hq
    omega
  · have hgt := hq.lt_of_lt hp hba
    rw [lt_iff] at hgt
    omega

theorem IsAt.le_iff_le (hp : p.IsAt text a) (hq : q.IsAt text b) : p ≤ q ↔ a ≤ b := by
  have hnot : p ≤ q ↔ ¬q < p := by
    rw [le_iff, lt_iff]
    omega
  rw [hnot, hq.lt_iff_lt hp, Nat.not_lt]

end Position

/-! ### What a span covers -/

namespace Span

variable {span : Span} {text front covered back : List Char}

theorem slice?_of_isAt {a b : Nat} (hstart : span.start.IsAt text a)
    (hstop : span.stop.IsAt text b) :
    span.slice? text = some ((text.drop a).take (b - a)) := by
  rw [slice?, hstart.2, hstop.2]
  rfl

/-- The lines that a span takes from the lines of a text: those from its start to its stop, the last
one cut at the stop and the first one without what stands in front of the start. -/
def clip (span : Span) (lines : List (List Char)) : List (List Char) :=
  (((lines.take span.stop.line).modify (span.stop.line - 1) (·.take (span.stop.column - 1))).drop
    (span.start.line - 1)).modifyHead (·.drop (span.start.column - 1))

/-- A span cuts a text in three, and neither cut goes through a line ending. -/
structure Cuts (span : Span) (text front covered back : List Char) : Prop where
  text_eq : text = front ++ (covered ++ back)
  opens : Seam front (covered ++ back)
  closes : Seam (front ++ covered) back
  start_eq : span.start = .after front
  stop_eq : span.stop = .after (front ++ covered)

theorem exists_cuts (hstart : span.start.Inside text) (hstop : span.stop.Inside text)
    (horder : span.start ≤ span.stop) :
    ∃ front covered back, span.Cuts text front covered back := by
  obtain ⟨first, hfirst⟩ := hstart.exists_isAt
  obtain ⟨last, hlast⟩ := hstop.exists_isAt
  rw [hfirst.le_iff_le hlast] at horder
  obtain ⟨front, rest, rfl, hopens, hstartEq, rfl⟩ := Position.isAt_iff.mp hfirst
  obtain ⟨front', back, htext, hcloses, hstopEq, rfl⟩ := Position.isAt_iff.mp hlast
  -- The longer one of the two beginnings continues the shorter one.
  obtain ⟨covered, rfl⟩ : front <+: front' :=
    List.prefix_of_prefix_length_le ⟨rest, rfl⟩ ⟨back, htext.symm⟩ horder
  rw [List.append_assoc, List.append_cancel_left_eq] at htext
  subst htext
  exact ⟨front, covered, back, rfl, hopens, hcloses, hstartEq, hstopEq⟩

namespace Cuts

variable (h : span.Cuts text front covered back)

include h

theorem isAt_start : span.start.IsAt text front.length :=
  Position.isAt_iff.mpr ⟨front, _, h.text_eq, h.opens, h.start_eq, rfl⟩

theorem isAt_stop : span.stop.IsAt text (front ++ covered).length :=
  Position.isAt_iff.mpr ⟨_, back, by rw [h.text_eq, List.append_assoc], h.closes, h.stop_eq, rfl⟩

theorem slice?_eq : span.slice? text = some covered := by
  rw [slice?_of_isAt h.isAt_start h.isAt_stop, h.text_eq, List.length_append,
    Nat.add_sub_cancel_left, List.drop_left, List.take_left]

/-- The part that a span covers has the lines that the span takes from the whole text. -/
theorem lines_eq : lines covered = span.clip (lines text) := by
  have hfront : ((lines text).take span.stop.line).modify (span.stop.line - 1)
      (·.take (span.stop.column - 1)) = lines (front ++ covered) := by
    rw [h.stop_eq, h.text_eq, ← List.append_assoc]
    exact (lines_front h.closes).symm
  rw [clip, hfront, h.start_eq]
  exact lines_back h.opens.left

end Cuts

theorem slice?_eq_none_iff :
    span.slice? text = none ↔
      (lines text).length < span.start.line ∨ (lines text).length < span.stop.line := by
  rw [← Position.offset?_eq_none_iff, ← Position.offset?_eq_none_iff, slice?]
  cases span.start.offset? text <;> cases span.stop.offset? text <;> simp

/-- What two adjoining spans cover is what they cover together. -/
theorem slice?_append {p q r : Position} (hp : p.Inside text) (hq : q.Inside text)
    (hr : r.Inside text) (hpq : p ≤ q) (hqr : q ≤ r) :
    ∃ front back, (⟨p, q⟩ : Span).slice? text = some front ∧
      (⟨q, r⟩ : Span).slice? text = some back ∧
      (⟨p, r⟩ : Span).slice? text = some (front ++ back) := by
  obtain ⟨a, ha⟩ := hp.exists_isAt
  obtain ⟨b, hb⟩ := hq.exists_isAt
  obtain ⟨c, hc⟩ := hr.exists_isAt
  rw [ha.le_iff_le hb] at hpq
  rw [hb.le_iff_le hc] at hqr
  have hpieces : (text.drop a).take (c - a) =
      (text.drop a).take (b - a) ++ (text.drop b).take (c - b) := by
    have hsum : c - a = (b - a) + (c - b) := by omega
    have hdrop : a + (b - a) = b := by omega
    rw [hsum, List.take_add, List.drop_drop, hdrop]
  refine ⟨_, _, slice?_of_isAt ha hb, slice?_of_isAt hb hc, ?_⟩
  rw [slice?_of_isAt ha hc, hpieces]

/-- A span can be cut out of a text exactly if the text has both of its lines. Inside of the text,
the lines of the slice are the lines of the text from the start to the stop of the span, and neither
end of the slice lies in the middle of a line ending. -/
theorem slice_has_lines (span : Span) (text : String) :
    ((∃ report, Operand.slice span text = .error report ∧ report.typeName = "IndexError") ↔
      (lines text.toList).length < span.start.line ∨
        (lines text.toList).length < span.stop.line) ∧
    ((∃ covered, Operand.slice span text = .ok covered) ↔
      span.start.line ≤ (lines text.toList).length ∧
        span.stop.line ≤ (lines text.toList).length) ∧
    (span.start ≤ span.stop → span.start.Inside text.toList → span.stop.Inside text.toList →
      ∃ (front back : List Char) (covered : String), Operand.slice span text = .ok covered ∧
        lines covered.toList = span.clip (lines text.toList) ∧
        text.toList = front ++ (covered.toList ++ back) ∧
        span.start.offset? text.toList = some front.length ∧
        Seam front (covered.toList ++ back) ∧ Seam (front ++ covered.toList) back) := by
  have hnone : span.slice? text.toList = none ↔ (lines text.toList).length < span.start.line ∨
      (lines text.toList).length < span.stop.line := slice?_eq_none_iff
  refine ⟨?_, ?_, fun horder hstart hstop => ?_⟩
  · rw [← hnone, Operand.slice]
    cases span.slice? text.toList with
    | none => exact ⟨fun _ => rfl, fun _ => ⟨_, rfl, rfl⟩⟩
    | some covered => exact ⟨nofun, nofun⟩
  · rw [← Nat.not_lt, ← Nat.not_lt, ← not_or, ← hnone, Operand.slice]
    cases span.slice? text.toList with
    | none => exact ⟨nofun, fun hsome => absurd rfl hsome⟩
    | some covered => exact ⟨fun _ => nofun, fun _ => ⟨_, rfl⟩⟩
  · obtain ⟨front, covered, back, hcuts⟩ := exists_cuts hstart hstop horder
    refine ⟨front, back, String.ofList covered, ?_, ?_, ?_, hcuts.isAt_start.2, ?_, ?_⟩
    · rw [Operand.slice, hcuts.slice?_eq]
    · rw [String.toList_ofList, hcuts.lines_eq]
    · rw [String.toList_ofList, hcuts.text_eq]
    · rw [String.toList_ofList]
      exact hcuts.opens
    · rw [String.toList_ofList]
      exact hcuts.closes

/-- A text of four lines with three sorts of endings. -/
def mixedEndings : String := "x\r\nab\rcd\n"

/-- A slice that starts at the end of a line and stops in the middle of another one. -/
theorem slice_mixedEndings : ∃ covered,
    Operand.slice ⟨⟨1, 2, by decide, by decide⟩, ⟨3, 2, by decide, by decide⟩⟩ mixedEndings =
      .ok covered ∧
    lines covered.toList = [[], ['a', 'b'], ['c']] := by
  obtain ⟨front, back, covered, hslice, hlines, -⟩ :=
    (slice_has_lines ⟨⟨1, 2, by decide, by decide⟩, ⟨3, 2, by decide, by decide⟩⟩
      mixedEndings).2.2 (by decide) ⟨['x'], by decide, by decide⟩ ⟨['c', 'd'], by decide, by decide⟩
  exact ⟨covered, hslice, hlines.trans (by decide)⟩

/-- Positions inside of a text come in the order of their characters. So what a span covers is what
its parts cover, and a span contains the text of every span that it contains. -/
theorem slices_follow_order (text : List Char) :
    (∀ p q : Position, p.Inside text → q.Inside text →
      ∃ a b, p.offset? text = some a ∧ q.offset? text = some b ∧ (p < q ↔ a < b)) ∧
    (∀ p q r : Position, p.Inside text → q.Inside text → r.Inside text → p ≤ q → q ≤ r →
      ∃ front back, (⟨p, q⟩ : Span).slice? text = some front ∧
        (⟨q, r⟩ : Span).slice? text = some back ∧
        (⟨p, r⟩ : Span).slice? text = some (front ++ back)) ∧
    (∀ outer inner : Span, outer.start.Inside text → outer.stop.Inside text →
      inner.start.Inside text → inner.stop.Inside text → outer.Contains inner →
      inner.start ≤ inner.stop →
      ∃ front covered back, (⟨outer.start, inner.start⟩ : Span).slice? text = some front ∧
        inner.slice? text = some covered ∧
        (⟨inner.stop, outer.stop⟩ : Span).slice? text = some back ∧
        outer.slice? text = some (front ++ (covered ++ back))) := by
  refine ⟨fun p q hp hq => ?_, fun p q r hp hq hr => slice?_append hp hq hr, ?_⟩
  · obtain ⟨a, ha⟩ := hp.exists_isAt
    obtain ⟨b, hb⟩ := hq.exists_isAt
    exact ⟨a, b, ha.2, hb.2, ha.lt_iff_lt hb⟩
  · rintro ⟨start, stop⟩ ⟨start', stop'⟩ hstart hstop hstart' hstop' ⟨hfront, hback⟩ horder
    obtain ⟨covered, back, hcovered, hbehind, hrest⟩ :=
      slice?_append hstart' hstop' hstop horder hback
    obtain ⟨front, rest, hbefore, hrest', houter⟩ := slice?_append hstart hstart' hstop hfront
      (Position.le_trans horder hback)
    rw [hrest, Option.some.injEq] at hrest'
    subst hrest'
    exact ⟨front, covered, back, hbefore, hcovered, hbehind, houter⟩

/-- The whole of the text with three sorts of endings. -/
def wholeSpan : Span := ⟨⟨1, 1, Nat.one_pos, Nat.one_pos⟩, ⟨4, 1, Nat.succ_pos 3, Nat.one_pos⟩⟩

/-- The second line of that text, without its ending. -/
def secondLine : Span :=
  let start : Position := ⟨2, 1, Nat.two_pos, Nat.one_pos⟩
  ⟨start, start.advance 2⟩

/-- The text in front of the second line and behind it has an ending of two characters and one of a
single character. -/
theorem slices_mixedEndings : ∃ front covered back,
    (⟨wholeSpan.start, secondLine.start⟩ : Span).slice? mixedEndings.toList = some front ∧
    secondLine.slice? mixedEndings.toList = some covered ∧
    (⟨secondLine.stop, wholeSpan.stop⟩ : Span).slice? mixedEndings.toList = some back ∧
    wholeSpan.slice? mixedEndings.toList = some (front ++ (covered ++ back)) ∧
    covered = ['a', 'b'] := by
  obtain ⟨front, covered, back, hfront, hcovered, hback, hwhole⟩ :=
    (slices_follow_order mixedEndings.toList).2.2 wholeSpan secondLine ⟨['x'], by decide, by decide⟩
      ⟨[], by decide, by decide⟩ ⟨['a', 'b'], by decide, by decide⟩
      ⟨['a', 'b'], by decide, by decide⟩ (by decide) (by decide)
  have hsecond : secondLine.slice? mixedEndings.toList = some ['a', 'b'] := by decide
  exact ⟨front, covered, back, hfront, hcovered, hback, hwhole,
    Option.some.inj (hcovered.symm.trans hsecond)⟩

end Span

end SourceSpan
