import SourceSpan.Proofs.Offset
import SourceSpan.Proofs.Spine
import SourceSpan.Widening

/-!
# Widening again

Widening looks at the first and the last comment of a value and at one line: the line recorded for
the value or, where none is recorded, the line on which the given span starts. A recorded line is
the same however often a span is widened, so nothing moves after the first time. The other line is
moved by the first widening itself, to the line of the first comment. If that is the line of the
last comment too, the second widening may move the stop, and only from then on nothing moves.
-/

namespace SourceSpan

theorem Position.ofInts_eq_ok_iff {line column : Int} {p : Position} :
    Position.ofInts line column = .ok p ↔ (p.line : Int) = line ∧ (p.column : Int) = column := by
  have hline := p.line_pos
  have hcolumn := p.column_pos
  unfold ofInts ofInts?
  by_cases hbounds : 1 ≤ line ∧ 1 ≤ column
  · simp only [hbounds, and_self, dite_true, Except.ok.injEq]
    constructor
    · rintro rfl
      exact ⟨Int.toNat_of_nonneg (by omega), Int.toNat_of_nonneg (by omega)⟩
    · rintro ⟨rfl, rfl⟩
      exact Position.ext (Int.toNat_natCast _) (Int.toNat_natCast _)
  · simp only [hbounds, dite_false, reduceCtorEq, false_iff]
    omega

namespace Span

variable {span once : Span} {v : Value} {first last : Comment}

/-! ### One widening -/

theorem widen_of_comments_eq_nil (h : v.comments = []) : span.widen v = .ok span := by
  rw [widen, h]

/-- What a span is widened to, from the first and the last comment. -/
theorem widen_eq_ok_iff (hfirst : v.comments.head? = some first)
    (hlast : v.comments.getLast? = some last) :
    span.widen v = .ok once ↔
      (once.start.line = first.line ∧
        (once.start.column : Int) = min (span.start.column : Int) first.startColumn) ∧
      once.stop = span.widenedStop last (v.ownLine.getD span.start.line) := by
  obtain ⟨rest, hcomments⟩ := List.head?_eq_some_iff.mp hfirst
  rw [hcomments, List.getLast?_cons, Option.some.injEq] at hlast
  rw [widen, hcomments]
  simp only [hlast, bind_eq_ok_iff, Position.ofInts_eq_ok_iff]
  constructor
  · rintro ⟨start, ⟨hline, hcolumn⟩, h⟩
    cases h
    exact ⟨⟨Int.ofNat.inj hline, hcolumn⟩, rfl⟩
  · rintro ⟨⟨hline, hcolumn⟩, hstop⟩
    refine ⟨once.start, ⟨congrArg Nat.cast hline, hcolumn⟩, ?_⟩
    rw [← hstop]
    rfl

theorem widenedStop_eq_stop_iff {line : Int} :
    span.widenedStop last line = span.stop ↔
      ((last.line : Int) = line → last.stopColumn ≤ span.stop.column) := by
  unfold widenedStop
  split_ifs with hline
  · rw [Position.advance_eq_self_iff]
    simp only [hline, true_implies]
    omega
  · simp only [hline, false_implies]

/-- A stop that has been moved past a comment is not moved past it again. -/
theorem stopColumn_le_of_widenedStop {line : Int} (hstop : once.stop = span.widenedStop last line)
    (hline : (last.line : Int) = line) : last.stopColumn ≤ once.stop.column := by
  rw [hstop, widenedStop, if_pos hline, Position.column_advance]
  omega

/-! ### Widening twice -/

/-- The second widening leaves the start where it is. In place of a line that is not recorded it
sees the line of the first comment. -/
theorem widen_again (hfirst : v.comments.head? = some first)
    (hlast : v.comments.getLast? = some last) (h : span.widen v = .ok once) :
    once.widen v = .ok ⟨once.start, once.widenedStop last (v.ownLine.getD first.line)⟩ := by
  obtain ⟨⟨hline, hcolumn⟩, -⟩ := (widen_eq_ok_iff hfirst hlast).mp h
  apply (widen_eq_ok_iff hfirst hlast).mpr
  refine ⟨⟨hline, ?_⟩, by rw [hline]⟩
  change (once.start.column : Int) = min (once.start.column : Int) first.startColumn
  omega

/-- No line is recorded for the value, its first and its last comment stand on one line, which is
not the one that the span starts on, and the last comment ends in a column behind the stop. The
first widening leaves the stop where it is, and the second one moves it. -/
def Drifts (span : Span) (v : Value) : Prop :=
  v.ownLine = none ∧ ∃ first last, v.comments.head? = some first ∧
    v.comments.getLast? = some last ∧ last.line = first.line ∧ last.line ≠ span.start.line ∧
    (span.stop.column : Int) < last.stopColumn

/-- A widened span is a fixed point exactly if it did not drift. -/
theorem widen_eq_self_iff (h : span.widen v = .ok once) :
    once.widen v = .ok once ↔ ¬span.Drifts v := by
  cases hhead : v.comments.head? with
  | none =>
      have hnil : v.comments = [] := List.head?_eq_none_iff.mp hhead
      rw [widen_of_comments_eq_nil hnil, Drifts, hhead]
      simp
  | some first =>
      obtain ⟨last, hlast⟩ : ∃ last, v.comments.getLast? = some last := by
        obtain ⟨rest, hcomments⟩ := List.head?_eq_some_iff.mp hhead
        exact ⟨_, by rw [hcomments, List.getLast?_cons]⟩
      have hstop := ((widen_eq_ok_iff hhead hlast).mp h).2
      have hfixed : once.widen v = .ok once ↔
          once.widenedStop last (v.ownLine.getD first.line) = once.stop := by
        rw [widen_again hhead hlast h, Except.ok.injEq]
        exact ⟨fun heq => congrArg Span.stop heq, fun heq => by rw [heq]⟩
      have hdrifts : span.Drifts v ↔ v.ownLine = none ∧ last.line = first.line ∧
          last.line ≠ span.start.line ∧ (span.stop.column : Int) < last.stopColumn := by
        simp [Drifts, hhead, hlast]
      rw [hfixed, hdrifts, widenedStop_eq_stop_iff]
      cases hown : v.ownLine with
      | some line =>
          rw [hown, Option.getD_some] at hstop
          have hstays := stopColumn_le_of_widenedStop hstop
          simpa using hstays
      | none =>
          rw [hown, Option.getD_none] at hstop
          rw [Option.getD_none]
          by_cases hline : (last.line : Int) = span.start.line
          · have hpast := stopColumn_le_of_widenedStop hstop hline
            have hnear : last.line = span.start.line := Int.ofNat.inj hline
            exact ⟨fun _ hdrift => hdrift.2.2.1 hnear, fun _ _ => hpast⟩
          · rw [widenedStop, if_neg hline] at hstop
            rw [hstop]
            simp only [true_and]
            omega

/-- The second widening is the last one that can move anything. -/
theorem widen_settles (h : span.widen v = .ok once) :
    ∃ twice, once.widen v = .ok twice ∧ twice.widen v = .ok twice := by
  by_cases hdrifts : span.Drifts v
  · obtain ⟨-, first, last, hfirst, hlast, -⟩ := id hdrifts
    have htwice := widen_again hfirst hlast h
    refine ⟨_, htwice, ?_⟩
    rw [widen_eq_self_iff htwice]
    rintro ⟨-, first', last', hfirst', hlast', hsame, hapart, -⟩
    -- After the first widening the span starts on the line of the first comment.
    rw [hfirst, Option.some.injEq] at hfirst'
    have hline := ((widen_eq_ok_iff hfirst hlast).mp h).1.1
    rw [hsame, ← hfirst'] at hapart
    exact hapart hline.symm
  · have honce := (widen_eq_self_iff h).mpr hdrifts
    exact ⟨once, honce, honce⟩

/-! ### Widening any number of times -/

/-- Widens a span a number of times, each time from the span that came out before. -/
def widenTimes (v : Value) : Nat → Span → Except Fault Span
  | 0, span => .ok span
  | times + 1, span => do
    let next ← span.widen v
    widenTimes v times next

theorem widenTimes_of_widen (h : once.widen v = .ok once) (times : Nat) :
    widenTimes v times once = .ok once := by
  induction times with
  | zero => rfl
  | succ times ih =>
      rw [widenTimes, h]
      exact ih

/-- A widened span is left as it is by every further widening, unless it drifts. In any case the
second widening succeeds as well and what comes out of it is final. -/
theorem widenTimes_eq_self_iff (h : span.widen v = .ok once) :
    ((∀ times, widenTimes v times once = .ok once) ↔ ¬span.Drifts v) ∧
      ∃ twice, once.widen v = .ok twice ∧ ∀ times, widenTimes v times twice = .ok twice := by
  constructor
  · rw [← widen_eq_self_iff h]
    constructor
    · intro hall
      have hone := hall 1
      rw [widenTimes, bind_eq_ok_iff] at hone
      obtain ⟨next, hnext, hsame⟩ := hone
      rw [hnext, ← hsame]
      rfl
    · exact widenTimes_of_widen
  · obtain ⟨twice, htwice, hfixed⟩ := widen_settles h
    exact ⟨twice, htwice, widenTimes_of_widen hfixed⟩

/-- A variable with a comment behind it in its own line. -/
def notedVariable : Value :=
  .node (.variable { line := some 1, column := some 1,
                     comments := [⟨1, some 3, "# trailing", Nat.one_pos⟩] } "x")

/-- The stop moves past the comment and stays there. -/
theorem widenTimes_notedVariable : ∃ span once : Span, notedVariable.span .standard 200 = .ok span ∧
    span.widen notedVariable = .ok once ∧ span.stop.column = 2 ∧ once.stop.column = 13 ∧
    ∀ times, widenTimes notedVariable times once = .ok once := by
  obtain ⟨span, hspan⟩ : ∃ span, notedVariable.span .standard 200 = .ok span := ⟨_, rfl⟩
  obtain ⟨once, honce⟩ : ∃ once, span.widen notedVariable = .ok once := by
    cases hspan
    exact ⟨_, rfl⟩
  have hfixed : ∀ times, widenTimes notedVariable times once = .ok once := by
    apply (widenTimes_eq_self_iff honce).1.mpr
    rintro ⟨hline, -⟩
    cases hline
  cases hspan
  cases honce
  exact ⟨_, _, rfl, rfl, rfl, rfl, hfixed⟩

/-- A sum, for which no line is recorded, with a comment on the line in front of it. -/
def notedSum : Value :=
  .node (.call { comments := [⟨1, some 1, "# the sum of both", Nat.one_pos⟩] } "+"
    [.node (.variable { line := some 2, column := some 1 } "a"),
      .node (.variable { line := some 2, column := some 5 } "b")])

/-- The first widening leaves the stop of the sum where it is and the second one moves it. -/
theorem widen_notedSum : ∃ span once twice : Span, notedSum.span .standard 200 = .ok span ∧
    span.widen notedSum = .ok once ∧ once.widen notedSum = .ok twice ∧
    once.stop = span.stop ∧ twice ≠ once := by
  refine ⟨_, _, _, rfl, rfl, rfl, rfl, ?_⟩
  decide

end Span

end SourceSpan
