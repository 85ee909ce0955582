import SourceSpan.Options
import SourceSpan.Proofs.Success

/-!
# The depth guard

The allowed depth decides whether a value is refused for lying too deep, and nothing else. A greater
depth changes no outcome that is not such a refusal. A value that has a span without any limit keeps
it wherever its height is allowed, and otherwise is refused at the first value that lies one level
too deep, or at its root if the general ceiling is what stops the computation.

`Value.unlimitedSpan` is the span without a limit: it solves the equation that says that a value is
measured by its rule from the spans of its children, with no depth in it.
-/

namespace SourceSpan

/-- The fault is that something lies too deep. -/
def Fault.IsTooDeep : Fault → Prop
  | .tooDeep .. => True
  | _ => False

namespace Value

variable {tooDeep tooDeep' : Value → Fault} {budget budget' : Nat} {v : Value}

/-! ### A greater budget -/

/-- More budget changes no outcome but that of having too little. -/
theorem spanAt_of_le (hdeep : ∀ w, (tooDeep w).IsTooDeep) (hle : budget ≤ budget')
    (h : ∀ fault, spanAt tooDeep budget v = .error fault → ¬fault.IsTooDeep) :
    spanAt tooDeep' budget' v = spanAt tooDeep budget v := by
  induction budget generalizing budget' v with
  | zero => exact absurd (hdeep v) (h _ rfl)
  | succ budget ih =>
      obtain ⟨budget', rfl⟩ : ∃ b, budget' = b + 1 := ⟨budget' - 1, by omega⟩
      exact v.layout_asks.agree (fun c _ hc => ih (Nat.le_of_succ_le_succ hle) hc) h

/-- A budget beyond the height of a value is never used up. -/
theorem spanAt_of_height_lt (h : v.height < budget) (h' : v.height < budget') :
    spanAt tooDeep' budget' v = spanAt tooDeep budget v := by
  induction budget generalizing budget' v with
  | zero => omega
  | succ budget ih =>
      obtain ⟨budget', rfl⟩ : ∃ b, budget' = b + 1 := ⟨budget' - 1, by omega⟩
      refine v.layout_asks.congr fun c hc => ?_
      have hheight := height_lt_of_mem_visited hc
      exact ih (by omega) (by omega)

/-! ### No limit -/

/-- The span of a value without a limit of depth. -/
def unlimitedSpan (v : Value) : Except Fault Span :=
  spanAt (fun w => .tooDeep v.height w.kind) (v.height + 1) v

theorem spanAt_eq_unlimitedSpan (h : v.height < budget) :
    spanAt tooDeep budget v = v.unlimitedSpan :=
  spanAt_of_height_lt (Nat.lt_succ_self _) h

/-- Without a limit, the rule of a value is applied to what the rules of its children give. -/
theorem unlimitedSpan_eq_layout (v : Value) : v.unlimitedSpan = v.layout unlimitedSpan := by
  refine v.layout_asks.congr fun c hc => ?_
  exact spanAt_eq_unlimitedSpan (height_lt_of_mem_visited hc)

/-- Nothing else than `unlimitedSpan` does so. -/
theorem eq_unlimitedSpan {within : Value → Except Fault Span}
    (hwithin : ∀ w, within w = w.layout within) (v : Value) : within v = v.unlimitedSpan := by
  induction hrank : v.rank using Nat.strong_induction_on generalizing v with
  | _ rank ih =>
      subst hrank
      rw [hwithin v, unlimitedSpan_eq_layout v]
      exact v.layout_asks.congr fun c hc => ih c.rank (rank_lt_of_mem_visited hc) c rfl

/-- A value with a span without a limit has no defect anywhere. -/
theorem defective_of_unlimitedSpan {span : Span} (h : v.unlimitedSpan = .ok span) {depth : Nat}
    {w : Value} (hw : w ∈ v.atDepth depth) : w.defective = false :=
  (spanAt_isOk_iff.mp ⟨span, h⟩ depth w hw).2

/-! ### The first value that lies too deep -/

/-- The values below a value as a descent meets them that goes to the first child first, each with
its depth; the descent stops below `levels` levels. -/
def descent : Nat → Nat → Value → List (Nat × Value)
  | 0, depth, v => [(depth, v)]
  | levels + 1, depth, v => (depth, v) :: v.visited.flatMap (descent levels (depth + 1))

/-- All values below a value in the order in which a computation meets them, with their depths. -/
def depthFirst (v : Value) : List (Nat × Value) :=
  v.descent v.height 0

/-- The first value that a descent meets at a depth. -/
theorem find?_descent {levels steps : Nat} (hle : steps ≤ levels) (depth : Nat) (v : Value) :
    (v.descent levels depth).find? (·.1 = depth + steps) =
      (v.atDepth steps).head?.map fun w => (depth + steps, w) := by
  induction steps generalizing levels depth v with
  | zero => cases levels <;> simp [descent]
  | succ steps ih =>
      obtain ⟨levels, rfl⟩ : ∃ l, levels = l + 1 := ⟨levels - 1, by omega⟩
      have hshift : depth + (steps + 1) = depth + 1 + steps := by omega
      have hself : ¬depth = depth + 1 + steps := by omega
      rw [atDepth_succ, descent, hshift, List.find?_cons_of_neg (by simpa using hself),
        List.find?_flatMap, List.head?_flatMap, List.map_findSome?]
      congr 1
      funext c
      exact ih (Nat.le_of_succ_le_succ hle) (depth + 1) c

/-- Without defects, the outcome of a computation with a budget is decided by the first value that
lies just beyond the budget. -/
theorem spanAt_outcome (tooDeep : Value → Fault) (budget : Nat) (v : Value)
    (hsound : ∀ depth, ∀ w ∈ v.atDepth depth, w.defective = false) :
    match (v.atDepth budget).head? with
    | some w => spanAt tooDeep budget v = .error (tooDeep w)
    | none => ∃ span, spanAt tooDeep budget v = .ok span := by
  induction budget generalizing v with
  | zero => rfl
  | succ budget ih =>
      have hchild : ∀ c ∈ v.visited, ∀ depth, ∀ w ∈ c.atDepth depth, w.defective = false :=
        fun c hc depth w hw => hsound (depth + 1) w (List.mem_flatMap.mpr ⟨c, hc, hw⟩)
      have hbad : ∀ c ∈ v.visited, ∀ fault, (c.atDepth budget).head?.map tooDeep = some fault →
          spanAt tooDeep budget c = .error fault := by
        intro c hc fault hfault
        obtain ⟨w, hw, rfl⟩ := Option.map_eq_some_iff.mp hfault
        simpa only [hw] using ih c (hchild c hc)
      have hgood : ∀ c ∈ v.visited, (c.atDepth budget).head?.map tooDeep = none →
          ∃ span, spanAt tooDeep budget c = .ok span := by
        intro c hc hnone
        simpa only [Option.map_eq_none_iff.mp hnone] using ih c (hchild c hc)
      have hasks := v.layout_asks
      rw [hsound 0 v List.mem_cons_self] at hasks
      have houtcome := hasks.outcome hbad hgood
      -- Children are looked at in source order, so the first of them that reaches too deep answers.
      have hfirst : v.visited.findSome? (fun c => (c.atDepth budget).head?.map tooDeep) =
          (v.atDepth (budget + 1)).head?.map tooDeep := by
        rw [atDepth_succ, List.head?_flatMap, List.map_findSome?]
        rfl
      rw [hfirst] at houtcome
      cases hhead : (v.atDepth (budget + 1)).head? with
      | none =>
          rw [hhead] at houtcome
          exact houtcome
      | some w =>
          rw [hhead] at houtcome
          exact houtcome

theorem isTooDeep_depthFault (machine : Machine) (maxDepth : Nat) (root w : Value) :
    (machine.depthFault maxDepth root w).IsTooDeep := by
  unfold Machine.depthFault
  split_ifs <;> trivial

/-- A fault that leaves the machine as something else than too deep a value was found as such, and
leaves it as the same whatever depth is allowed. -/
theorem raised_of_not_isTooDeep {machine : Machine} {maxDepth : Nat} {root : Value} {fault : Fault}
    (h : ¬(machine.raised maxDepth root fault).IsTooDeep) (maxDepth' : Nat) :
    ¬fault.IsTooDeep ∧
      machine.raised maxDepth' root fault = machine.raised maxDepth root fault := by
  cases fault with
  | unrecognized refused =>
      refine ⟨id, ?_⟩
      simp only [Machine.raised] at h ⊢
      cases hhurdle : machine.hurdle? root refused with
      | none => rfl
      | some hurdle =>
          rw [hhurdle] at h
          cases hurdle with
          | nesting => exact absurd trivial h
          | digits => rfl
  | _ => exact ⟨h, rfl⟩

/-- A greater depth changes no outcome but that of lying too deep. -/
theorem span_of_le {machine : Machine} {maxDepth maxDepth' : Nat} (hle : maxDepth ≤ maxDepth')
    (h : ∀ fault, v.span machine maxDepth = .error fault → ¬fault.IsTooDeep) :
    v.span machine maxDepth' = v.span machine maxDepth := by
  have hreach : machine.reach maxDepth + 1 ≤ machine.reach maxDepth' + 1 := by
    unfold Machine.reach
    omega
  have hfound : ∀ fault,
      spanAt (machine.depthFault maxDepth v) (machine.reach maxDepth + 1) v = .error fault →
        ¬fault.IsTooDeep := fun fault hfault =>
    (raised_of_not_isTooDeep (h _ (span_eq_error_iff.mpr ⟨fault, hfault, rfl⟩)) maxDepth').1
  have hsame : spanAt (machine.depthFault maxDepth' v) (machine.reach maxDepth' + 1) v =
      spanAt (machine.depthFault maxDepth v) (machine.reach maxDepth + 1) v :=
    spanAt_of_le (isTooDeep_depthFault machine maxDepth v) hreach hfound
  cases hspan : v.span machine maxDepth with
  | ok span =>
      rw [span_eq_ok_iff, ← hsame] at hspan
      exact span_eq_ok_iff.mpr hspan
  | error fault =>
      obtain ⟨found, hspan', rfl⟩ := span_eq_error_iff.mp hspan
      rw [← hsame] at hspan'
      refine span_eq_error_iff.mpr ⟨found, hspan', ?_⟩
      exact (raised_of_not_isTooDeep (h _ hspan) maxDepth').2

/-- A value with a span without a limit has the same span wherever its height is allowed. -/
theorem span_of_height_le {machine : Machine} {maxDepth : Nat} {span : Span}
    (hspan : v.unlimitedSpan = .ok span) (h : v.height ≤ machine.reach maxDepth) :
    v.span machine maxDepth = .ok span := by
  rw [span_eq_ok_iff, spanAt_eq_unlimitedSpan (Nat.lt_succ_of_le h), hspan]

/-- Where its height is not allowed, such a value is refused at the first value that lies one level
too deep. -/
theorem span_of_lt_height {machine : Machine} {maxDepth : Nat} {span : Span}
    (hspan : v.unlimitedSpan = .ok span) (h : machine.reach maxDepth < v.height) :
    ∃ w, v.depthFirst.find? (·.1 = machine.reach maxDepth + 1) =
        some (machine.reach maxDepth + 1, w) ∧
      v.span machine maxDepth = .error (machine.depthFault maxDepth v w) := by
  have houtcome := spanAt_outcome (machine.depthFault maxDepth v) (machine.reach maxDepth + 1) v
    fun depth w hw => defective_of_unlimitedSpan hspan hw
  have hfind := find?_descent h 0 v
  rw [Nat.zero_add] at hfind
  cases hhead : (v.atDepth (machine.reach maxDepth + 1)).head? with
  | none =>
      have hnil := height_lt_iff.mpr (List.head?_eq_none_iff.mp hhead)
      omega
  | some w =>
      rw [hhead] at hfind houtcome
      refine ⟨w, hfind, span_eq_error_iff.mpr ⟨_, houtcome, ?_⟩⟩
      unfold Machine.depthFault
      split_ifs <;> rfl

end Value

/-! ### Under options -/

/-- Widening a span never finds that something lies too deep. -/
theorem Span.not_isTooDeep_of_widen {span : Span} {v : Value} {fault : Fault}
    (h : span.widen v = .error fault) : ¬fault.IsTooDeep := by
  unfold Span.widen at h
  split at h
  case h_1 => cases h
  case h_2 first rest _ =>
      unfold Position.ofInts at h
      split at h
      case h_1 => cases h
      case h_2 =>
          cases h
          exact id

namespace Options

variable {machine : Machine} {options options' : Options} {v : Value}

/-- A greater depth changes no outcome but that of lying too deep, with comments or without. -/
theorem spanOf_of_le (hcomments : options.includeComments = options'.includeComments)
    (hle : options.maxDepth ≤ options'.maxDepth)
    (h : ∀ fault, options.spanOf v machine = .error fault → ¬fault.IsTooDeep) :
    options'.spanOf v machine = options.spanOf v machine := by
  have hspan : v.span machine options'.maxDepth = v.span machine options.maxDepth :=
    Value.span_of_le hle fun fault hfault => h fault (spanOf_of_fault hfault)
  unfold spanOf
  rw [hspan, hcomments]

/-- The depth guard. Whatever is not a refusal for depth stays as it is when more depth is allowed.
A value that has a span without a limit is given that span, widened as the options ask, exactly if
its height is allowed. Otherwise it is refused: if the options are what stops the computation, at the
first value that a descent meets one level too deep, and if the machine is, at the value itself. -/
theorem spanOf_depth_guard (machine : Machine) (v : Value) :
    (∀ options options' : Options, options.includeComments = options'.includeComments →
      options.maxDepth ≤ options'.maxDepth →
      (∀ fault, options.spanOf v machine = .error fault → ¬fault.IsTooDeep) →
      options'.spanOf v machine = options.spanOf v machine) ∧
    ∀ span, v.unlimitedSpan = .ok span → ∀ options : Options,
      (options.spanOf v machine = (if options.includeComments then span.widen v else .ok span) ↔
        v.height ≤ min options.maxDepth machine.levels) ∧
      (options.maxDepth < v.height → options.maxDepth < machine.levels →
        ∃ w, v.depthFirst.find? (·.1 = options.maxDepth + 1) = some (options.maxDepth + 1, w) ∧
          options.spanOf v machine = .error (.tooDeep options.maxDepth w.kind)) ∧
      (machine.levels < v.height → machine.levels < options.maxDepth →
        options.spanOf v machine = .error (.tooDeep options.maxDepth v.kind)) := by
  refine ⟨fun options options' hcomments hle h => spanOf_of_le hcomments hle h, ?_⟩
  intro span hspan options
  refine ⟨⟨fun houtcome => ?_, fun hheight => ?_⟩, fun hheight hlevels => ?_,
    fun hheight hlevels => ?_⟩
  · by_contra hheight
    have hless : machine.reach options.maxDepth < v.height := Nat.lt_of_not_le hheight
    obtain ⟨w, _, hfault⟩ := Value.span_of_lt_height hspan hless
    rw [spanOf_of_fault hfault] at houtcome
    have hdeep := Value.isTooDeep_depthFault machine options.maxDepth v w
    split_ifs at houtcome
    · exact Span.not_isTooDeep_of_widen houtcome.symm hdeep
  · exact spanOf_of_span (Value.span_of_height_le hspan hheight)
  · have hreach : machine.reach options.maxDepth = options.maxDepth :=
      Nat.min_eq_left (Nat.le_of_lt hlevels)
    obtain ⟨w, hfind, hfault⟩ := Value.span_of_lt_height hspan (by rw [hreach]; exact hheight)
    rw [hreach] at hfind
    refine ⟨w, hfind, ?_⟩
    rw [spanOf_of_fault hfault, Machine.depthFault, if_pos (Nat.le_of_lt hlevels)]
  · have hreach : machine.reach options.maxDepth = machine.levels :=
      Nat.min_eq_right (Nat.le_of_lt hlevels)
    obtain ⟨w, _, hfault⟩ := Value.span_of_lt_height hspan (by rw [hreach]; exact hheight)
    rw [spanOf_of_fault hfault, Machine.depthFault, if_neg (Nat.not_le_of_lt hlevels)]

/-- Three operators in front of each other and of a variable. -/
def negations : Value :=
  .node (.call { line := some 1, column := some 1 } "-"
    [.node (.call { line := some 1, column := some 2 } "-"
      [.node (.call { line := some 1, column := some 3 } "-"
        [.node (.variable { line := some 1, column := some 4 } "x")])])])

/-- The variable lies three levels deep, so it is refused where only two are allowed. -/
theorem spanOf_negations : ∃ w, negations.depthFirst.find? (·.1 = 3) = some (3, w) ∧
    ({ maxDepth := 2 } : Options).spanOf negations = .error (.tooDeep 2 w.kind) := by
  have hspan : ∃ span, negations.unlimitedSpan = .ok span := ⟨_, rfl⟩
  obtain ⟨span, hspan⟩ := hspan
  have hheight : 2 < negations.height := by
    rw [← Nat.not_le, ← Nat.lt_succ_iff, Value.height_lt_iff]
    exact List.cons_ne_nil _ _
  exact ((spanOf_depth_guard .standard negations).2 span hspan { maxDepth := 2 }).2.1 hheight
    (by decide)

end Options

end SourceSpan
