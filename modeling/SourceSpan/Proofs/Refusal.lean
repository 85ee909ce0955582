import SourceSpan.Proofs.Success

/-!
# Refusals

A value that no rule applies to is refused, and its refusal holds the whole value. What the refusal
ends as depends on what it takes to write that. The calls that lie on top of each other grow with the
nesting of the value alone, whereas the numbers in it matter only for their digits.
-/

namespace SourceSpan

open Burden

/-! ### Calls -/

@[simp]
theorem Burden.calls_join (a b : Burden) : (a.join b).calls = max a.calls b.calls := rfl

@[simp]
theorem Burden.calls_under (calls : Nat) (inner : Burden) :
    (under calls inner).calls = calls + inner.calls := rfl

theorem Burden.calls_ofList {α : Type} {burden : α → Burden} (h : ∀ a, (burden a).calls = 0)
    (items : List α) : (ofList burden items).calls = 0 := by
  have hfold (sum : Burden) (hsum : sum.calls = 0) :
      (items.foldl (fun sum item => sum.join (burden item)) sum).calls = 0 := by
    induction items generalizing sum with
    | nil => exact hsum
    | cons a rest ih => exact ih _ (by rw [calls_join, hsum, h, Nat.max_self])
  exact hfold {} rfl

theorem Burden.calls_ofOption {α : Type} {burden : α → Burden} (h : ∀ a, (burden a).calls = 0)
    (entry : Option α) : (ofOption burden entry).calls = 0 := by
  cases entry with
  | none => rfl
  | some a => exact h a

/-- What is recorded of a node holds nothing that is nested. -/
@[simp]
theorem Metadata.calls_burden (info : Metadata) : info.burden.calls = 0 := by
  have hint (n : Int) : (ofInt n).calls = 0 := rfl
  have hposition (p : Position) : p.burden.calls = 0 := rfl
  have hcomment (c : Comment) : c.burden.calls = 0 := by
    rw [Comment.burden, calls_join, hint, calls_ofOption hint, Nat.max_self]
  simp only [Metadata.burden, ofList, List.foldl_cons, List.foldl_nil, calls_join, id_eq,
    calls_ofOption hint, calls_ofOption hposition]
  change max _ (ofList Comment.burden info.comments).calls = 0
  rw [calls_ofList hcomment]
  rfl

@[simp]
theorem Numeral.calls_burden (n : Numeral) : n.burden.calls = 0 := by
  cases n <;> rfl

/-! ### What a refusal ends as -/

/-- There is a rule for values of this sort. -/
def Value.hasRule : Value → Bool
  | .sequence _ => true
  | .node (.bare _) => false
  | .node (.dot ..) => false
  | .node _ => true
  | _ => false

namespace Options

variable {machine : Machine} {options : Options} {v : Value}

/-- A value without a rule is refused at once, in whatever form the refusal leaves the machine. -/
theorem spanOf_of_not_hasRule (h : v.hasRule = false) :
    options.spanOf v machine = .error (machine.raised options.maxDepth v (.unrecognized v)) := by
  have hlayout (within : Value → Except Fault Span) :
      v.layout within = .error (.unrecognized v) := by
    cases v with
    | sequence items => cases h
    | node n => cases n <;> first | rfl | cases h
    | _ => rfl
  exact spanOf_of_fault (Value.span_eq_error_iff.mpr ⟨.unrecognized v, hlayout _, rfl⟩)

/-- A refusal that is nested too deeply is reported as if the value itself lay too deep. -/
theorem spanOf_of_callLimit_lt (h : v.hasRule = false)
    (hcalls : Machine.callLimit < v.burden.calls) :
    options.spanOf v = .error (.tooDeep options.maxDepth v.kind) := by
  have hhurdle : Machine.standard.hurdle? v v = some .nesting := if_pos hcalls
  rw [spanOf_of_not_hasRule h, Machine.raised, hhurdle]
  rfl

theorem spanOf_of_isLong (h : v.hasRule = false) (hcalls : v.burden.calls ≤ Machine.callLimit)
    (hlong : v.burden.isLong = true) : options.spanOf v = .error .longNumber := by
  have hhurdle : Machine.standard.hurdle? v v = some .digits :=
    (if_neg (Nat.not_lt_of_le hcalls)).trans (if_pos hlong)
  rw [spanOf_of_not_hasRule h, Machine.raised, hhurdle]
  rfl

theorem spanOf_of_short (h : v.hasRule = false) (hcalls : v.burden.calls ≤ Machine.callLimit)
    (hlong : v.burden.isLong = false) : options.spanOf v = .error (.unrecognized v) := by
  have hhurdle : Machine.standard.hurdle? v v = none :=
    (if_neg (Nat.not_lt_of_le hcalls)).trans (if_neg (Bool.eq_false_iff.mp hlong))
  rw [spanOf_of_not_hasRule h, Machine.raised, hhurdle]
  rfl

end Options

/-! ### Nested operators -/

/-- So many operators in front of each other and of a variable. -/
def negated : Nat → Node
  | 0 => .variable { } "x"
  | count + 1 => .call { } "-" [.node (negated count)]

theorem le_calls_negated (count : Nat) :
    (nodeCalls + groupCalls) * count ≤ (negated count).burden.calls := by
  induction count with
  | zero => exact Nat.zero_le _
  | succ count ih =>
      simp only [negated, Node.burden, childrenBurden, calls_join, calls_under, Nat.mul_succ]
      omega

/-- A field of an expression with so many operators. -/
def negatedField (count : Nat) : Value :=
  .node (.dot { } (negated count) "f")

theorem callLimit_lt_negatedField {count : Nat}
    (h : Machine.callLimit < (nodeCalls + groupCalls) * count) :
    Machine.callLimit < (negatedField count).burden.calls := by
  have hcalls := le_calls_negated count
  simp only [negatedField, Value.burden, Node.burden, calls_join, calls_under]
  omega

end SourceSpan
