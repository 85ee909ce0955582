import SourceSpan.Options
import SourceSpan.Proofs.Rule

/-!
# When a value has a span

A value has a span exactly if no value that the rules descend into lies too deep or has a defect of
its own. Values that no rule descends into may be anything.

The machine has a part only in how deep the rules can go and in what a refusal ends as.
-/

namespace SourceSpan

variable {machine : Machine} {options : Options} {maxDepth : Nat} {v : Value} {span : Span}
  {fault : Fault}

/-! ### Outcomes -/

theorem Value.span_eq_ok_iff :
    v.span machine maxDepth = .ok span ↔
      spanAt (machine.depthFault maxDepth v) (machine.reach maxDepth + 1) v = .ok span := by
  unfold Value.span
  cases spanAt (machine.depthFault maxDepth v) (machine.reach maxDepth + 1) v <;>
    simp [Except.mapError]

theorem Value.span_eq_error_iff :
    v.span machine maxDepth = .error fault ↔
      ∃ found, spanAt (machine.depthFault maxDepth v) (machine.reach maxDepth + 1) v =
        .error found ∧ machine.raised maxDepth v found = fault := by
  unfold Value.span
  cases spanAt (machine.depthFault maxDepth v) (machine.reach maxDepth + 1) v <;>
    simp [Except.mapError]

namespace Options

theorem spanOf_of_span (h : v.span machine options.maxDepth = .ok span) :
    options.spanOf v machine = if options.includeComments then span.widen v else .ok span := by
  simp only [spanOf, h]
  rfl

theorem spanOf_of_fault (h : v.span machine options.maxDepth = .error fault) :
    options.spanOf v machine = .error fault := by
  simp only [spanOf, h]
  rfl

/-- Without comments, the plain span is all there is. -/
theorem spanOf_plain (hplain : options.includeComments = false) :
    options.spanOf v machine = v.span machine options.maxDepth := by
  cases hspan : v.span machine options.maxDepth with
  | error fault => exact spanOf_of_fault hspan
  | ok span => rw [spanOf_of_span hspan, hplain, if_neg Bool.false_ne_true]

end Options

namespace Value

/-! ### Successes -/

/-- A computation with a budget succeeds exactly if everything it meets lies within the budget and
has no defect. -/
theorem spanAt_isOk_iff {tooDeep : Value → Fault} {budget : Nat} {v : Value} :
    (∃ span, spanAt tooDeep budget v = .ok span) ↔
      ∀ depth, ∀ w ∈ v.atDepth depth, depth < budget ∧ w.defective = false := by
  induction budget generalizing v with
  | zero =>
      constructor
      · rintro ⟨span, hspan⟩
        cases hspan
      · intro h
        exact absurd (h 0 v List.mem_cons_self).1 (Nat.lt_irrefl 0)
  | succ budget ih =>
      change (∃ span, v.layout (spanAt tooDeep budget) = .ok span) ↔ _
      rw [v.layout_asks.isOk_iff]
      constructor
      · rintro ⟨hroot, hchildren⟩ depth w hw
        cases depth with
        | zero =>
            obtain rfl := List.mem_singleton.mp hw
            exact ⟨Nat.succ_pos budget, hroot⟩
        | succ depth =>
            obtain ⟨c, hc, hw⟩ := List.mem_flatMap.mp hw
            have hbelow := ih.mp (hchildren c hc) depth w hw
            exact ⟨Nat.succ_lt_succ hbelow.1, hbelow.2⟩
      · intro h
        refine ⟨(h 0 v List.mem_cons_self).2, fun c hc => ih.mpr fun depth w hw => ?_⟩
        have hbelow := h (depth + 1) w (List.mem_flatMap.mpr ⟨c, hc, hw⟩)
        exact ⟨Nat.lt_of_succ_lt_succ hbelow.1, hbelow.2⟩

/-- A value has a span exactly if every value that the rules descend into lies within the allowed
depth and has no defect. -/
theorem span_isOk_iff (machine : Machine) (maxDepth : Nat) (v : Value) :
    (∃ span, v.span machine maxDepth = .ok span) ↔
      ∀ depth, ∀ w ∈ v.atDepth depth,
        depth ≤ machine.reach maxDepth ∧ w.defective = false := by
  simp only [span_eq_ok_iff, spanAt_isOk_iff, Nat.lt_succ_iff]

end Value

/-- Under options that do not ask for comments, a value has a span exactly if every value that the
rules descend into lies as deep as the options allow and the machine can follow, and has no defect.
-/
theorem Options.spanOf_isOk_iff (machine : Machine) (options : Options) (v : Value) :
    (∃ span, { options with includeComments := false }.spanOf v machine = .ok span) ↔
      ∀ depth, ∀ w ∈ v.atDepth depth,
        depth ≤ min options.maxDepth machine.levels ∧ w.defective = false := by
  rw [spanOf_plain rfl]
  exact Value.span_isOk_iff machine options.maxDepth v

end SourceSpan
