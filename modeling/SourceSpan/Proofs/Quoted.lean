import SourceSpan.Proofs.Depth
import SourceSpan.Proofs.Literal

/-!
# Quoted literals

A quoted literal stands between two delimiters of one character and takes up the same text wherever
it is written. Its span starts right. If its value is a single line, or if it opens in the first
column, its span stops right too, just behind the closing delimiter. Otherwise the stop lies behind
that by as many columns as there are in front of the literal, and a slice takes that many characters
more, as far as the text goes on.
-/

namespace SourceSpan

open Layout Text

/-- The literals that may be quoted with a single character. -/
inductive QuotedForm where
  | string
  | atom

namespace QuotedForm

def node : QuotedForm → Metadata → String → Node
  | .string, info, value => .string info value
  | .atom, info, value => .atom info value

/-- What stands in front of the value; an atom also has its colon. -/
def opening : QuotedForm → Char → List Char
  | .string, d => [d]
  | .atom, d => [':', d]

/-- The literal as it stands in a source text. -/
def written (form : QuotedForm) (d : Char) (value : String) : List Char :=
  form.opening d ++ value.toList ++ [d]

variable {form : QuotedForm} {info : Metadata} {value : String} {d : Char} {start : Position}

theorem breakCount_singleton (hcr : d ≠ '\r') (hlf : d ≠ '\n') : breakCount [d] = 0 :=
  breakCount_char hcr hlf []

theorem breakCount_opening (form : QuotedForm) (hcr : d ≠ '\r') (hlf : d ≠ '\n') :
    breakCount (form.opening d) = 0 := by
  have hd := breakCount_singleton hcr hlf
  cases form with
  | string => exact hd
  | atom =>
      change breakCount (':' :: [d]) = 0
      rw [breakCount_char (by decide) (by decide), hd]

/-- Both rules measure the value by `textStop`, from the widths of the two tokens around it. -/
theorem span_node (form : QuotedForm) (value : String) (machine : Machine) (maxDepth : Nat)
    (hplace : info.place? = some start) (hdelimiter : info.delimiter = some (String.singleton d)) :
    (Value.node (form.node info value)).span machine maxDepth =
      .ok ⟨start, textStop start value (form.opening d).length 1⟩ := by
  rw [Value.span_eq_ok_iff]
  cases form with
  | string =>
      change stringSpan info value = _
      rw [stringSpan, Metadata.position_of_place? hplace, hdelimiter]
      simp [need, isTriple_singleton, bind, Except.bind, opening, pure, Except.pure]
  | atom =>
      change atomSpan info value = _
      rw [atomSpan, Metadata.position_of_place? hplace, hdelimiter]
      simp [bind, Except.bind, opening, pure, Except.pure]

variable {pre post : List Char}

/-- The value and the closing delimiter do not run into each other, so the position behind the
literal is well defined. -/
theorem isAt_after_written (hcr : d ≠ '\r') (hlf : d ≠ '\n') :
    (Position.after (pre ++ form.written d value)).IsAt (pre ++ (form.written d value ++ post))
      (pre.length + (form.written d value).length) := by
  have hd := breakCount_singleton hcr hlf
  refine Position.isAt_iff.mpr ⟨_, post, (List.append_assoc ..).symm, ?_, rfl, List.length_append⟩
  rw [written, ← List.append_assoc]
  exact (seam_of_unbroken_left hd post).append _ (List.cons_ne_nil d [])

theorem textStop_written (hcr : d ≠ '\r') (hlf : d ≠ '\n')
    (hseam : Seam pre (form.written d value ++ post)) :
    textStop (.after pre) value (form.opening d).length 1 =
      (Position.after (pre ++ form.written d value)).advance (surplus (.after pre) value) := by
  have hd := breakCount_singleton hcr hlf
  have hfront : Seam pre (form.opening d ++ value.toList) := hseam.left.left
  have hend : Seam (pre ++ (form.opening d ++ value.toList)) [d] := by
    simpa only [List.append_nil] using
      seam_of_unbroken_right hd (List.cons_ne_nil d []) (pre ++ (form.opening d ++ value.toList)) []
  have hclosing : Position.after (pre ++ form.written d value) =
      (Position.after (pre ++ (form.opening d ++ value.toList))).advance 1 := by
    rw [written, ← List.append_assoc, Position.after_append hend, if_pos hd]
    rfl
  rw [textStop_after (breakCount_opening form hcr hlf) hfront, hclosing, Position.advance_advance]

/-- A quoted literal has a span that starts with it. The stop is the position behind the closing
delimiter, moved by the surplus; it is that position itself exactly if the value is a single line or
the literal opens in the first column. -/
theorem spanOf_written (machine : Machine) (options : Options)
    (hcomments : options.includeComments = false) {src : List Char}
    (hsrc : src = pre ++ (form.written d value ++ post)) (hcr : d ≠ '\r') (hlf : d ≠ '\n')
    (hdelimiter : info.delimiter = some (String.singleton d))
    (hopens : info.OpensAt src pre.length) :
    ∃ (span : Span) (stop : Position),
      options.spanOf (.node (form.node info value)) machine = .ok span ∧
      span.start.IsAt src pre.length ∧
      stop.IsAt src (pre.length + (form.written d value).length) ∧
      span.stop = stop.advance (surplus span.start value) ∧
      (span.stop = stop ↔ breakCount value.toList = 0 ∨ span.start.column = 1) ∧
      span.slice? src = some (form.written d value ++ post.take (surplus span.start value)) := by
  obtain ⟨start, hplace, hat⟩ := hopens
  obtain ⟨front, back, hcut, hseam, rfl, hlength⟩ := Position.isAt_iff.mp hat
  obtain ⟨rfl, rfl⟩ := List.append_inj (hsrc.symm.trans hcut) hlength.symm
  have hend : (Position.after (pre ++ form.written d value)).IsAt src
      (pre.length + (form.written d value).length) := by
    rw [hsrc]
    exact isAt_after_written hcr hlf
  have hspan := span_node form value machine options.maxDepth hplace hdelimiter
  rw [textStop_written hcr hlf hseam] at hspan
  refine ⟨⟨.after pre, (Position.after (pre ++ form.written d value)).advance
    (surplus (.after pre) value)⟩, _, ?_, hat, hend, rfl, ?_, ?_⟩
  · rw [Options.spanOf_of_span hspan, hcomments]
    rfl
  · rw [← surplus_eq_zero_iff]
    exact Position.advance_eq_self_iff
  · rw [Span.slice?, hat.2, Position.offset?_advance hend.2, hsrc]
    simp only [Option.bind_eq_bind, Option.bind_some, Option.pure_def, List.drop_left]
    rw [Nat.add_assoc, Nat.add_sub_cancel_left, List.take_length_add_append]

/-- A quoted atom of two lines in the first column, in front of something else. -/
def quotedAtomInfo : Metadata where
  line := some 2
  column := some 1
  delimiter := some "'"

/-- The line endings around the atom and inside of it are of different sorts. -/
theorem spanOf_quotedAtom : ∃ (span : Span) (stop : Position),
    Options.default.spanOf (.node (.atom quotedAtomInfo "a b\r\nc")) = .ok span ∧
    stop.IsAt ("x\r:'a b\r\nc' + 1".toList) 11 ∧ span.stop = stop ∧
    span.slice? ("x\r:'a b\r\nc' + 1".toList) = some (":'a b\r\nc'".toList) := by
  have hsrc : "x\r:'a b\r\nc' + 1".toList =
      ['x', '\r'] ++ (atom.written '\'' "a b\r\nc" ++ [' ', '+', ' ', '1']) := by decide
  have hopens : quotedAtomInfo.OpensAt "x\r:'a b\r\nc' + 1".toList 2 :=
    ⟨⟨2, 1, by decide, by decide⟩, rfl, ⟨[':', '\'', 'a', ' ', 'b'], by decide, by decide⟩,
      by decide⟩
  obtain ⟨span, stop, hspan, -, hstop, -, htight, hslice⟩ :=
    spanOf_written .standard .default rfl hsrc (by decide) (by decide) rfl hopens
  cases hspan
  exact ⟨_, stop, rfl, hstop, htight.mpr (.inr rfl), hslice⟩

/-- A string of two lines that is assigned to a variable. -/
def assignedString : Value :=
  .node (.string { line := some 1, column := some 5, delimiter := some "\"" } "ab\ncd")

/-- The span of the string takes four characters more than the string, one for each column in front
of it. -/
theorem slice_assignedString : ∃ (span : Span) (stop : Position),
    Options.default.spanOf assignedString = .ok span ∧
    span.start.IsAt ("x = \"ab\ncd\" <> y".toList) 4 ∧
    stop.IsAt ("x = \"ab\ncd\" <> y".toList) 11 ∧ span.stop ≠ stop ∧
    span.slice? ("x = \"ab\ncd\" <> y".toList) = some ("\"ab\ncd\" <> ".toList) := by
  refine ⟨_, ⟨2, 4, by decide, by decide⟩, rfl, ⟨⟨['x', ' ', '=', ' ', '"', 'a', 'b'], ?_, ?_⟩, ?_⟩,
    ⟨⟨['c', 'd', '"', ' ', '<', '>', ' ', 'y'], ?_, ?_⟩, ?_⟩, ?_, ?_⟩
  all_goals decide

end QuotedForm

end SourceSpan
