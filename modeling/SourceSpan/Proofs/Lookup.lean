import SourceSpan.Layout

/-!
# No rule looks in vain

The rules take items out of lists by their index. Each of them makes sure before that there is such
an item, so none ends for the lack of one. Here the rules are brought into the form in which the
other modules read them, with the items themselves in place of look-ups that could fail.
-/

namespace SourceSpan

/-! ### Look-ups -/

section Items

variable {α : Type} (first : α) (rest : List α)

theorem itemAt_zero_cons : itemAt (first :: rest) 0 = .ok first := rfl

theorem lastItem_of_getLast? {items : List α} {last : α} (h : items.getLast? = some last) :
    lastItem items = .ok last := by
  rw [lastItem, h]

theorem lastItem_cons : lastItem (first :: rest) = .ok (rest.getLast?.getD first) :=
  lastItem_of_getLast? List.getLast?_cons

end Items

namespace Layout

/-- How a call is laid out, with the arguments themselves. -/
inductive CallForm where
  /-- From the start of one argument to the stop of another. -/
  | between (first last : Child)
  /-- The name stands before the operand. -/
  | unary (operand : Child)
  /-- The name comes first and the arguments follow it. -/
  | plain

/-- The form of a call. A clause and a binary operator have two arguments, a range with a step has
three and a unary operator has one. -/
def callForm (name : String) (args : List Child) : CallForm :=
  match args with
  | [operand] =>
    if Operator.classify name 1 = .unary then .unary operand else .plain
  | [first, last] =>
    if name = "->" ∨ Operator.classify name 2 = .binary then .between first last else .plain
  | [first, _, last] =>
    if name = "..//" then .between first last else .plain
  | _ => .plain

/-! ### The rules -/

variable (within : Value → Except Fault Span)

theorem hull_cons (first : Value) (rest : List Value) :
    hull within (first :: rest) =
      match rest.getLast? with
      | none => within first
      | some last => between within first last := by
  rw [hull, itemAt_zero_cons, lastItem_cons]
  cases hlast : rest.getLast? with
  | none =>
      obtain rfl := List.getLast?_eq_none_iff.mp hlast
      rfl
  | some last =>
      have hlength : (first :: rest).length ≠ 1 := by
        rintro hone
        rw [List.length_eq_zero_iff.mp (Nat.succ.inj hone)] at hlast
        cases hlast
      simp only [if_neg hlength]
      rfl

theorem blockSpan_eq (info : Metadata) (items : List Child) :
    blockSpan within info items =
      if info.hasClosing then info.position Shape.block.kind >>= info.closingSpan Shape.block.kind
      else
        match items with
        | [] => .error .emptyBlock
        | first :: rest => hull within (first.toValue :: rest.map Child.toValue) := by
  cases items <;> rfl

/-- The plan of a call looks for no argument that the call does not have. -/
theorem callSpan_eq (info : Metadata) (name : String) (args : List Child) :
    callSpan within info name args =
      match callForm name args with
      | .between first last => between within first.toValue last.toValue
      | .unary operand => unarySpan within info name operand
      | .plain => plainCallSpan within info args := by
  unfold callSpan callPlan callForm Operator.classify
  match args with
  | [] => simp
  | [operand] =>
      by_cases hunary : Operator.isUnary name <;> simp [hunary, itemAt_zero_cons]
      rfl
  | [first, last] =>
      by_cases hclause : name = "->"
      · simp [hclause]
        rfl
      · by_cases hbinary : Operator.isBinary name <;> simp [hclause, hbinary]
        rfl
  | [first, middle, last] =>
      by_cases hstep : name = "..//" <;> simp [hstep]
      rfl
  | _ :: _ :: _ :: _ :: _ => simp

end Layout

end SourceSpan
