import SourceSpan.Proofs.Cause
import SourceSpan.Proofs.Containment
import SourceSpan.Proofs.Widening

/-!
# What a widened span covers

Widening looks at the first and the last comment only. If the comments stand on lines of their own,
from the top down and none below the line on which the span starts, that is enough for all of them:
the first one bounds the others from above, and only the last one can stand on the line on which the
span starts. All others end on a line in front of the stop. The last one does so too, unless the
whole span lies on its line, and then that is the line of the node and the stop is moved behind the
comment.

The stop is moved to the column in which the last comment ends, but it stays on its line. If that is
not the line of the comment, it ends up neither where the node stops nor where the comment does.
-/

namespace SourceSpan

theorem Position.exists_ofInts {line column : Int} (hline : 1 ≤ line) (hcolumn : 1 ≤ column) :
    ∃ p, Position.ofInts line column = .ok p := by
  unfold ofInts ofInts?
  rw [dif_pos ⟨hline, hcolumn⟩]
  exact ⟨_, rfl⟩

/-! ### Comments in front of a span -/

namespace Comment

variable {comment : Comment}

/-- The part of its line that a comment takes up. -/
def span (comment : Comment) : Except Fault Span := do
  let start ← Position.ofInts comment.line comment.startColumn
  let stop ← Position.ofInts comment.line comment.stopColumn
  return ⟨start, stop⟩

theorem one_le_startColumn (h : 1 ≤ comment.column.getD 1) : 1 ≤ comment.startColumn := by
  by_contra hlow
  rw [column_of_startColumn (by omega), Option.getD_some] at h
  exact hlow h

theorem span_eq_ok_iff {inner : Span} :
    comment.span = .ok inner ↔
      (inner.start.line = comment.line ∧ (inner.start.column : Int) = comment.startColumn) ∧
      inner.stop.line = comment.line ∧ (inner.stop.column : Int) = comment.stopColumn := by
  simp only [span, bind_eq_ok_iff, Position.ofInts_eq_ok_iff, Int.natCast_inj]
  constructor
  · rintro ⟨start, hstart, stop, hstop, h⟩
    cases h
    exact ⟨hstart, hstop⟩
  · rintro ⟨hstart, hstop⟩
    exact ⟨inner.start, hstart, inner.stop, hstop, rfl⟩

theorem exists_span (h : 1 ≤ comment.startColumn) : ∃ inner, comment.span = .ok inner := by
  have hline : 1 ≤ (comment.line : Int) := by
    have hpos := comment.line_pos
    omega
  have hstop : 1 ≤ comment.stopColumn := by
    unfold stopColumn
    omega
  obtain ⟨start, hstart⟩ := Position.exists_ofInts hline h
  obtain ⟨stop, hstop⟩ := Position.exists_ofInts hline hstop
  refine ⟨⟨start, stop⟩, ?_⟩
  rw [span, hstart, hstop]
  rfl

end Comment

/-- The comments stand in front of a span: on lines of their own, from the top down, none of them
below the line on which the span starts and none in front of the first column. -/
structure LeadTo (comments : List Comment) (span : Span) : Prop where
  ordered : comments.Pairwise fun a b => a.line < b.line
  line_le : ∀ comment ∈ comments, comment.line ≤ span.start.line
  column_pos : ∀ comment ∈ comments, 1 ≤ comment.column.getD 1

namespace LeadTo

variable {comments : List Comment} {span : Span} {first last comment : Comment}

/-- The other comments stand below the first one. -/
theorem eq_or_first_lt (h : LeadTo comments span) (hfirst : comments.head? = some first)
    (hmem : comment ∈ comments) : comment = first ∨ first.line < comment.line := by
  obtain ⟨rest, rfl⟩ := List.head?_eq_some_iff.mp hfirst
  rcases List.mem_cons.mp hmem with heq | hmem
  · exact .inl heq
  · exact .inr ((List.pairwise_cons.mp h.ordered).1 comment hmem)

/-- The other comments stand above the last one. -/
theorem eq_or_lt_last (h : LeadTo comments span) (hlast : comments.getLast? = some last)
    (hmem : comment ∈ comments) : comment = last ∨ comment.line < last.line := by
  obtain ⟨front, rfl⟩ := List.getLast?_eq_some_iff.mp hlast
  rcases List.mem_append.mp hmem with hmem | hmem
  · exact .inr ((List.pairwise_append.mp h.ordered).2.2 comment hmem last List.mem_cons_self)
  · exact .inl (List.mem_singleton.mp hmem)

end LeadTo

/-! ### The widened span -/

namespace Span

variable {span wide : Span} {v : Value} {first last comment : Comment}

theorem line_widenedStop (span : Span) (last : Comment) (line : Int) :
    (span.widenedStop last line).line = span.stop.line := by
  unfold widenedStop
  split_ifs <;> rfl

theorem le_widenedStop (span : Span) (last : Comment) (line : Int) :
    span.stop ≤ span.widenedStop last line := by
  unfold widenedStop
  split_ifs
  · exact Position.le_advance _ _
  · exact Position.le_refl _

theorem column_widenedStop {line : Int} (hline : (last.line : Int) = line) :
    ((span.widenedStop last line).column : Int) = max (span.stop.column : Int) last.stopColumn := by
  rw [widenedStop, if_pos hline, Position.column_advance]
  omega

/-- The last comment stands on the line of the node and the span stops on another line, in a column
in front of the one in which the comment ends. -/
def Overruns (span : Span) (v : Value) (last : Comment) : Prop :=
  (last.line : Int) = v.ownLine.getD span.start.line ∧ last.line ≠ span.stop.line ∧
    (span.stop.column : Int) < last.stopColumn

instance (span : Span) (v : Value) (last : Comment) : Decidable (span.Overruns v last) :=
  inferInstanceAs (Decidable (_ ∧ _))

section Widened

variable (hfirst : v.comments.head? = some first) (hlast : v.comments.getLast? = some last)
  (h : span.widen v = .ok wide)

include hfirst hlast h

/-- A span is inside of what it is widened to, if the first comment is not below its start. -/
theorem contains_of_widen (hline : first.line ≤ span.start.line) : wide.Contains span := by
  obtain ⟨⟨hstart, hcolumn⟩, hstop⟩ := (widen_eq_ok_iff hfirst hlast).mp h
  constructor
  · rw [Position.le_iff]
    omega
  · rw [hstop]
    exact le_widenedStop span last _

/-- The stop is the end of the span or the end of the last comment, unless the span overruns. -/
theorem stop_widen_iff :
    (wide.stop = span.stop ∨
      wide.stop.line = last.line ∧ (wide.stop.column : Int) = last.stopColumn) ↔
      ¬span.Overruns v last := by
  obtain ⟨-, hstop⟩ := (widen_eq_ok_iff hfirst hlast).mp h
  have hstays : wide.stop = span.stop ↔ ((last.line : Int) = v.ownLine.getD span.start.line →
      last.stopColumn ≤ span.stop.column) := by
    rw [hstop]
    exact widenedStop_eq_stop_iff
  have hline : wide.stop.line = span.stop.line := by
    rw [hstop, line_widenedStop]
  rw [Overruns, hstays, hline]
  by_cases hown : (last.line : Int) = v.ownLine.getD span.start.line
  · have hcolumn : (wide.stop.column : Int) = max (span.stop.column : Int) last.stopColumn := by
      rw [hstop, column_widenedStop hown]
    omega
  · simp [hown]

/-- A span that overruns is widened along its last line, as far as the comment reaches on another
line. -/
theorem stop_widen_of_overruns (hover : span.Overruns v last) :
    wide.stop.line = span.stop.line ∧ (wide.stop.column : Int) = last.stopColumn ∧
      span.stop < wide.stop := by
  obtain ⟨-, hstop⟩ := (widen_eq_ok_iff hfirst hlast).mp h
  obtain ⟨hown, -, hbehind⟩ := hover
  have hline : wide.stop.line = span.stop.line := by
    rw [hstop, line_widenedStop]
  have hcolumn : (wide.stop.column : Int) = last.stopColumn := by
    rw [hstop, column_widenedStop hown]
    omega
  refine ⟨hline, hcolumn, ?_⟩
  rw [Position.lt_iff]
  omega

variable {inner : Span} (hlead : LeadTo v.comments span) (hmem : comment ∈ v.comments)
  (hinner : comment.span = .ok inner)

include hlead hmem hinner

theorem start_le_comment : wide.start ≤ inner.start := by
  obtain ⟨⟨hline, hcolumn⟩, -⟩ := (widen_eq_ok_iff hfirst hlast).mp h
  obtain ⟨⟨hstartLine, hstartColumn⟩, -⟩ := Comment.span_eq_ok_iff.mp hinner
  rw [Position.le_iff]
  rcases hlead.eq_or_first_lt hfirst hmem with rfl | hbelow
  · omega
  · omega

theorem comment_le_stop (horder : span.start ≤ span.stop)
    (hown : ∀ line, v.ownLine = some line →
      (span.start.line : Int) ≤ line ∧ line ≤ span.stop.line) :
    inner.stop ≤ wide.stop := by
  obtain ⟨-, hstop⟩ := (widen_eq_ok_iff hfirst hlast).mp h
  obtain ⟨-, hstopLine, hstopColumn⟩ := Comment.span_eq_ok_iff.mp hinner
  have hline : wide.stop.line = span.stop.line := by
    rw [hstop, line_widenedStop]
  have habove := hlead.line_le comment hmem
  rw [Position.le_iff] at horder ⊢
  by_cases hbefore : comment.line < span.stop.line
  · omega
  · -- The comment stands on the only line of the span, so it is the last one, on the node's line.
    have hlastAbove := hlead.line_le last (List.mem_of_getLast? hlast)
    obtain rfl : comment = last := by
      rcases hlead.eq_or_lt_last hlast hmem with heq | hlt
      · exact heq
      · omega
    have hnode : (comment.line : Int) = v.ownLine.getD span.start.line := by
      cases hrecorded : v.ownLine with
      | none =>
          rw [Option.getD_none]
          omega
      | some line =>
          have hbetween := hown line hrecorded
          rw [Option.getD_some]
          omega
    have hbehind := stopColumn_le_of_widenedStop hstop hnode
    omega

end Widened

/-- Widening succeeds if no comment is recorded in front of the first column. -/
theorem exists_widen (hlead : LeadTo v.comments span) : ∃ wide, span.widen v = .ok wide := by
  cases hwide : span.widen v with
  | ok wide => exact ⟨wide, rfl⟩
  | error fault =>
      obtain ⟨first, column, hfirst, hcolumn, hlow, -⟩ := widen_eq_error hwide
      have hpos := hlead.column_pos first (List.mem_of_head? hfirst)
      rw [hcolumn, Option.getD_some] at hpos
      omega

end Span

namespace Options

/-- A sum in a single line with a comment above it and one behind it. -/
def notedCall : Node :=
  .call { line := some 2, column := some 3,
          comments := [⟨1, none, "# above the sum", Nat.one_pos⟩,
            ⟨2, some 8, "# behind the sum", Nat.two_pos⟩] } "+"
    [.node (.variable { line := some 2, column := some 1 } "a"),
      .node (.variable { line := some 2, column := some 5 } "b")]

/-- A widened span stops where the plain span stops or where the last comment ends, exactly if the
plain span does not overrun. If it does, the widened span stops behind the plain one on its last
line, in the column in which the comment ends on another line. -/
theorem stop_spanOf_iff (machine : Machine) (options : Options) {n : Node} {span wide : Span}
    {last : Comment}
    (hspan : ({ options with includeComments := false } : Options).spanOf (.node n) machine =
      .ok span)
    (hwide : ({ options with includeComments := true } : Options).spanOf (.node n) machine =
      .ok wide)
    (hlast : n.info.comments.getLast? = some last) :
    ((wide.stop = span.stop ∨
      wide.stop.line = last.line ∧ (wide.stop.column : Int) = last.stopColumn) ↔
      ¬span.Overruns (.node n) last) ∧
    (span.Overruns (.node n) last →
      wide.stop.line = span.stop.line ∧ (wide.stop.column : Int) = last.stopColumn ∧
        span.stop < wide.stop) := by
  rw [spanOf_plain rfl] at hspan
  have hwiden : span.widen (.node n) = .ok wide := by
    refine Eq.trans (Eq.symm ?_) hwide
    refine (spanOf_of_span ?_).trans rfl
    exact hspan
  obtain ⟨first, hfirst⟩ : ∃ first, (Value.node n).comments.head? = some first :=
    ⟨_, List.head?_eq_some_head (List.ne_nil_of_mem (List.mem_of_getLast? hlast))⟩
  exact ⟨Span.stop_widen_iff hfirst hlast hwiden, Span.stop_widen_of_overruns hfirst hlast hwiden⟩

/-- The second comment ends behind the sum on its only line, and there the widened span stops. -/
theorem stop_notedCall : ∃ span wide : Span,
    Options.default.spanOf (.node notedCall) = .ok span ∧
    ({ Options.default with includeComments := true } : Options).spanOf (.node notedCall) =
      .ok wide ∧
    wide.stop ≠ span.stop ∧
    (wide.stop = span.stop ∨ wide.stop.line = 2 ∧ (wide.stop.column : Int) = 24) := by
  have hspan : Options.default.spanOf (.node notedCall) = .ok _ := rfl
  have hwide : ({ Options.default with includeComments := true } : Options).spanOf
      (.node notedCall) = .ok _ := rfl
  have hstop := (stop_spanOf_iff .standard .default hspan hwide rfl).1.mpr (by decide)
  exact ⟨_, _, hspan, hwide, by decide, hstop⟩

/-- A call of three lines, closed by a word on the last one, with a comment on the first one. -/
def notedBlock : Node :=
  .call { line := some 1, column := some 1, endWord := some ⟨3, 1, Nat.succ_pos 2, Nat.one_pos⟩,
          comments := [⟨1, some 8, "# a note about foo", Nat.one_pos⟩] } "foo"
    [.node (.variable { line := some 2, column := some 3 } "x")]

/-- The widened span stops in the column in which the comment ends, two lines below the comment. -/
theorem stop_notedBlock : ∃ (span wide : Span) (last : Comment),
    Options.default.spanOf (.node notedBlock) = .ok span ∧
    ({ Options.default with includeComments := true } : Options).spanOf (.node notedBlock) =
      .ok wide ∧
    notedBlock.info.comments.getLast? = some last ∧
    ¬(wide.stop = span.stop ∨
      wide.stop.line = last.line ∧ (wide.stop.column : Int) = last.stopColumn) ∧
    wide.stop.line = 3 ∧ wide.stop.column = 26 := by
  refine ⟨_, _, _, rfl, rfl, rfl, ?_⟩
  decide

end Options

end SourceSpan
