import Mathlib.Data.List.Basic
import Mathlib.Data.Nat.Find
import SourceSpan.Proofs.Lookup

/-!
# What the rules descend into

The rule of a value looks at some of its children, in source order, and at nothing else of them but
their spans. `Value.visited` lists these children. Following them level by level gives the values
that lie at a depth, `Value.atDepth`, again in source order, and `Value.height` is the greatest
depth at which there are any.

The descent ends because every visited child is of a smaller `Value.rank`, the nesting of everything
that some rule could descend into.
-/

namespace SourceSpan

open Layout

/-- The first and the last of some things; a single thing is listed once. -/
def ends {α : Type} : List α → List α
  | [] => []
  | first :: rest => first :: rest.getLast?.toList

theorem mem_of_mem_ends {α : Type} {x : α} {xs : List α} (hx : x ∈ ends xs) : x ∈ xs := by
  cases xs with
  | nil => exact hx
  | cons first rest =>
      rcases List.mem_cons.mp hx with rfl | hlast
      · exact List.mem_cons_self
      · exact List.mem_cons_of_mem _ (List.mem_of_getLast? (Option.mem_toList.mp hlast))

theorem map_ends {α β : Type} (f : α → β) (xs : List α) : (ends xs).map f = ends (xs.map f) := by
  cases xs with
  | nil => rfl
  | cons first rest => cases hlast : rest.getLast? <;> simp [ends, hlast, List.getLast?_map]

/-- The value that a part of a dotted name is measured as; a plain name is not measured. -/
def Segment.visited : Segment → List Value
  | .name _ => []
  | .node n => [.node n]

/-- The last argument, which a call without a closing token stops with. -/
def lastArgument? (info : Metadata) (args : List Child) : Option Value :=
  if info.hasClosing then none else args.getLast?.map Child.toValue

/-- The children that the rule of a node descends into, in source order. -/
def Node.visited : Node → List Value
  | .alias _ segments => (ends segments).flatMap Segment.visited
  | .block info items => if info.hasClosing then [] else (ends items).map Child.toValue
  | .pair _ key value => [.node key, .node value]
  | .call info name args =>
    match callForm name args with
    | .between first last => [first.toValue, last.toValue]
    | .unary operand => [operand.toValue]
    | .plain => (lastArgument? info args).toList
  | .remoteCall info _ receiver _ args => .node receiver :: (lastArgument? info args).toList
  | .access _ subject _ => [.node subject]
  | .qualifiedTuple _ receiver _ => [.node receiver]
  | _ => []

namespace Value

/-- The values that the rule of a value descends into, in source order. -/
def visited : Value → List Value
  | .sequence items => ends items
  | .node n => n.visited
  | _ => []

/-- The values that lie at a depth below a value, in source order; the value itself lies at depth
zero. -/
def atDepth : Nat → Value → List Value
  | 0, v => [v]
  | depth + 1, v => v.visited.flatMap (atDepth depth)

@[simp]
theorem atDepth_zero (v : Value) : v.atDepth 0 = [v] := rfl

theorem atDepth_succ (depth : Nat) (v : Value) :
    v.atDepth (depth + 1) = v.visited.flatMap (atDepth depth) := rfl

theorem forall_mem_atDepth {P : Value → Prop} {v : Value} (hroot : P v)
    (hvisited : ∀ c ∈ v.visited, ∀ depth, ∀ w ∈ c.atDepth depth, P w) (depth : Nat) :
    ∀ w ∈ v.atDepth depth, P w := by
  intro w hw
  cases depth with
  | zero =>
      obtain rfl := List.mem_singleton.mp hw
      exact hroot
  | succ depth =>
      obtain ⟨c, hc, hw⟩ := List.mem_flatMap.mp hw
      exact hvisited c hc depth w hw

/-- A computation for a value that goes down `levels` levels reaches another value. -/
def Reaches (levels : Nat) (v w : Value) : Prop :=
  ∃ depth ≤ levels, w ∈ v.atDepth depth

end Value

/-! ### The descent ends -/

mutual

/-- How deeply the children of a node that some rule could descend into are nested. -/
def Node.rank : Node → Nat
  | .alias _ segments => segmentsRank segments + 1
  | .block _ items => childrenRank items + 1
  | .pair _ key value => max key.rank value.rank + 1
  | .call _ _ args => childrenRank args + 1
  | .remoteCall _ _ receiver _ args => max receiver.rank (childrenRank args) + 1
  | .access _ subject _ => subject.rank + 1
  | .qualifiedTuple _ receiver _ => receiver.rank + 1
  | _ => 0

/-- The greatest rank among the nodes of a dotted name. -/
def segmentsRank : List Segment → Nat
  | [] => 0
  | .name _ :: rest => segmentsRank rest
  | .node n :: rest => max n.rank (segmentsRank rest)

/-- The greatest rank among entries of a block or arguments of a call. -/
def childrenRank : List Child → Nat
  | [] => 0
  | .node n :: rest => max n.rank (childrenRank rest)
  | .group ns :: rest => max (nodesRank ns + 1) (childrenRank rest)

/-- The greatest rank among nodes. -/
def nodesRank : List Node → Nat
  | [] => 0
  | n :: rest => max n.rank (nodesRank rest)

end

mutual

/-- How deeply a value is nested. -/
def Value.rank : Value → Nat
  | .sequence items => valuesRank items + 1
  | .node n => n.rank
  | _ => 0

/-- The greatest rank among values. -/
def valuesRank : List Value → Nat
  | [] => 0
  | v :: rest => max v.rank (valuesRank rest)

end

theorem rank_le_valuesRank {v : Value} {vs : List Value} (hv : v ∈ vs) :
    v.rank ≤ valuesRank vs := by
  induction vs with
  | nil => cases hv
  | cons head rest ih =>
      rw [valuesRank]
      rcases List.mem_cons.mp hv with rfl | hrest
      · exact Nat.le_max_left _ _
      · exact Nat.le_trans (ih hrest) (Nat.le_max_right _ _)

theorem valuesRank_map_node (ns : List Node) : valuesRank (ns.map .node) = nodesRank ns := by
  induction ns with
  | nil => rfl
  | cons n rest ih => rw [List.map_cons, valuesRank, nodesRank, ih, Value.rank]

theorem rank_toValue_le_childrenRank {child : Child} {items : List Child} (hc : child ∈ items) :
    child.toValue.rank ≤ childrenRank items := by
  induction items with
  | nil => cases hc
  | cons head rest ih =>
      have hstep : childrenRank (head :: rest) = max head.toValue.rank (childrenRank rest) := by
        cases head with
        | node n => rw [childrenRank, Child.toValue, Value.rank]
        | group ns => rw [childrenRank, Child.toValue, Value.rank, valuesRank_map_node]
      rw [hstep]
      rcases List.mem_cons.mp hc with rfl | hrest
      · exact Nat.le_max_left _ _
      · exact Nat.le_trans (ih hrest) (Nat.le_max_right _ _)

theorem rank_le_segmentsRank {n : Node} {segments : List Segment} (hn : .node n ∈ segments) :
    n.rank ≤ segmentsRank segments := by
  induction segments with
  | nil => cases hn
  | cons head rest ih =>
      rcases List.mem_cons.mp hn with rfl | hrest
      · rw [segmentsRank]
        exact Nat.le_max_left _ _
      · cases head with
        | name text =>
            rw [segmentsRank]
            exact ih hrest
        | node n' =>
            rw [segmentsRank]
            exact Nat.le_trans (ih hrest) (Nat.le_max_right _ _)

theorem mem_of_lastArgument? {c : Value} {info : Metadata} {args : List Child}
    (hc : lastArgument? info args = some c) : ∃ child ∈ args, child.toValue = c := by
  unfold lastArgument? at hc
  split at hc
  · cases hc
  · obtain ⟨child, hchild, rfl⟩ := Option.map_eq_some_iff.mp hc
    exact ⟨child, List.mem_of_getLast? hchild, rfl⟩

/-- The arguments that an operator stands between are arguments. -/
theorem mem_of_between {name : String} {args : List Child} {first last : Child}
    (h : callForm name args = .between first last) : first ∈ args ∧ last ∈ args := by
  unfold callForm at h
  split at h
  case h_1 => split_ifs at h
  case h_2 =>
      split_ifs at h
      cases h
      exact ⟨List.mem_cons_self, List.mem_cons_of_mem _ List.mem_cons_self⟩
  case h_3 =>
      split_ifs at h
      cases h
      exact ⟨List.mem_cons_self,
        List.mem_cons_of_mem _ (List.mem_cons_of_mem _ List.mem_cons_self)⟩
  case h_4 => cases h

theorem mem_of_unary {name : String} {args : List Child} {operand : Child}
    (h : callForm name args = .unary operand) : operand ∈ args := by
  unfold callForm at h
  split at h
  case h_1 =>
      split_ifs at h
      cases h
      exact List.mem_cons_self
  case h_2 => split_ifs at h
  case h_3 => split_ifs at h
  case h_4 => cases h

/-- Every rule descends into values of a smaller rank. -/
theorem Value.rank_lt_of_mem_visited {c v : Value} (hc : c ∈ v.visited) : c.rank < v.rank := by
  cases v with
  | sequence items =>
      rw [Value.rank]
      exact Nat.lt_succ_of_le (rank_le_valuesRank (mem_of_mem_ends hc))
  | node n =>
      rw [Value.rank]
      cases n with
      | «alias» info segments =>
          obtain ⟨segment, hsegment, hc⟩ := List.mem_flatMap.mp hc
          cases segment with
          | name text => cases hc
          | node n =>
              obtain rfl := List.mem_singleton.mp hc
              rw [Node.rank, Value.rank]
              exact Nat.lt_succ_of_le (rank_le_segmentsRank (mem_of_mem_ends hsegment))
      | block info items =>
          rw [visited, Node.visited] at hc
          split at hc
          · cases hc
          · obtain ⟨child, hchild, rfl⟩ := List.mem_map.mp hc
            rw [Node.rank]
            exact Nat.lt_succ_of_le (rank_toValue_le_childrenRank (mem_of_mem_ends hchild))
      | pair info key value =>
          rw [Node.rank]
          rcases List.mem_pair.mp hc with rfl | rfl
          · exact Nat.lt_succ_of_le (Nat.le_max_left _ _)
          · exact Nat.lt_succ_of_le (Nat.le_max_right _ _)
      | call info name args =>
          have hmem : ∃ child ∈ args, child.toValue = c := by
            rw [visited, Node.visited] at hc
            split at hc
            case h_1 first last hform =>
              rcases List.mem_pair.mp hc with rfl | rfl
              · exact ⟨first, (mem_of_between hform).1, rfl⟩
              · exact ⟨last, (mem_of_between hform).2, rfl⟩
            case h_2 operand hform =>
              obtain rfl := List.mem_singleton.mp hc
              exact ⟨operand, mem_of_unary hform, rfl⟩
            case h_3 hform => exact mem_of_lastArgument? (Option.mem_toList.mp hc)
          obtain ⟨child, hchild, rfl⟩ := hmem
          rw [Node.rank]
          exact Nat.lt_succ_of_le (rank_toValue_le_childrenRank hchild)
      | remoteCall info dotInfo receiver name args =>
          rw [Node.rank]
          rcases List.mem_cons.mp hc with rfl | hlast
          · exact Nat.lt_succ_of_le (Nat.le_max_left _ _)
          · obtain ⟨child, hchild, rfl⟩ := mem_of_lastArgument? (Option.mem_toList.mp hlast)
            exact Nat.lt_succ_of_le
              (Nat.le_trans (rank_toValue_le_childrenRank hchild) (Nat.le_max_right _ _))
      | access info subject key =>
          obtain rfl := List.mem_singleton.mp hc
          rw [Node.rank, Value.rank]
          exact Nat.lt_succ_self _
      | qualifiedTuple info receiver items =>
          obtain rfl := List.mem_singleton.mp hc
          rw [Node.rank, Value.rank]
          exact Nat.lt_succ_self _
      | _ => cases hc
  | _ => cases hc

namespace Value

/-- No value lies deeper than the rank of the value that contains it. -/
theorem atDepth_eq_nil_of_rank_lt {depth : Nat} {v : Value} (h : v.rank < depth) :
    v.atDepth depth = [] := by
  induction depth generalizing v with
  | zero => omega
  | succ depth ih =>
      rw [atDepth_succ, List.flatMap_eq_nil_iff]
      intro c hc
      have hrank := rank_lt_of_mem_visited hc
      exact ih (by omega)

theorem atDepth_succ_eq_nil {depth : Nat} {v : Value} (h : v.atDepth depth = []) :
    v.atDepth (depth + 1) = [] := by
  induction depth generalizing v with
  | zero => cases h
  | succ depth ih =>
      rw [atDepth_succ, List.flatMap_eq_nil_iff] at h ⊢
      intro c hc
      exact ih (h c hc)

theorem atDepth_eq_nil_of_le {a b : Nat} {v : Value} (hab : a ≤ b) (h : v.atDepth a = []) :
    v.atDepth b = [] := by
  induction b, hab using Nat.le_induction with
  | base => exact h
  | succ b _ ih => exact atDepth_succ_eq_nil ih

/-- The greatest depth of a value that the rules descend into. -/
def height (v : Value) : Nat :=
  Nat.findGreatest (fun depth => (v.atDepth depth).isEmpty = false) v.rank

/-- There are values at the depth `height`, and none below it. -/
theorem height_lt_iff {v : Value} {depth : Nat} : v.height < depth ↔ v.atDepth depth = [] := by
  constructor
  · intro h
    by_cases hrank : depth ≤ v.rank
    · have hempty := Nat.findGreatest_is_greatest h hrank
      simpa using hempty
    · exact atDepth_eq_nil_of_rank_lt (Nat.lt_of_not_le hrank)
  · intro h
    by_contra hle
    have hroot : (v.atDepth 0).isEmpty = false := rfl
    have hgreatest : (v.atDepth v.height).isEmpty = false :=
      Nat.findGreatest_spec (P := fun d => (v.atDepth d).isEmpty = false) (Nat.zero_le _) hroot
    rw [atDepth_eq_nil_of_le (Nat.le_of_not_lt hle) h] at hgreatest
    cases hgreatest

theorem height_lt_of_mem_visited {c v : Value} (hc : c ∈ v.visited) : c.height < v.height := by
  rw [height_lt_iff]
  have hbelow : v.atDepth (v.height + 1) = [] := height_lt_iff.mp (Nat.lt_succ_self _)
  rw [atDepth_succ, List.flatMap_eq_nil_iff] at hbelow
  exact hbelow c hc

end Value

end SourceSpan
