import Mathlib.Algebra.BigOperators.Group.List.Basic
import Mathlib.Algebra.GroupWithZero.Nat
import SourceSpan.Proofs.Success

/-!
# Spines

The start of a span is found by one walk through the tree and its stop by another, and neither walk
knows of the other. The left walk goes to the child that a value starts with, as long as there is
one, and the position recorded for the value it ends at is the start. The right walk goes to the
child that a value stops with, and the value it ends at has a stop of its own. On the way the right
walk passes operators in front of their operands; each of them that stands on another line than the
stop adds its width to the column.
-/

namespace SourceSpan

open Layout

/-! ### Steps -/

/-- The child that a node starts with. -/
def Node.leftStep : Node → Option Value
  | .alias _ (.node n :: _) => some (.node n)
  | .block info items => if info.hasClosing then none else items.head?.map Child.toValue
  | .pair _ key _ => some (.node key)
  | .call _ name args =>
    match callForm name args with
    | .between first _ => some first.toValue
    | _ => none
  | .remoteCall _ _ receiver _ _ => some (.node receiver)
  | .access _ subject _ => some (.node subject)
  | .qualifiedTuple _ receiver _ => some (.node receiver)
  | _ => none

/-- The child that a node stops with. -/
def Node.rightStep : Node → Option Value
  | .alias _ segments =>
    match segments.getLast? with
    | some (.node n) => some (.node n)
    | _ => none
  | .block info items => if info.hasClosing then none else items.getLast?.map Child.toValue
  | .pair _ _ value => some (.node value)
  | .call info name args =>
    match callForm name args with
    | .between _ last => some last.toValue
    | .unary operand => some operand.toValue
    | .plain => lastArgument? info args
  | .remoteCall info _ _ _ args => lastArgument? info args
  | _ => none

/-- The position that a node without a child in front starts at: its own, or that of its body. -/
def Node.opening? : Node → Option Position
  | .interpolatedAtom _ bodyInfo _ => bodyInfo.place?
  | n => n.info.place?

/-- Where a node without a child at its end stops. -/
def Node.ownStop? : Node → Option Position
  | .number info _ => do
    let start ← info.place?
    let token ← info.token
    return start.advance token.length
  | .atom info value => do
    let start ← info.place?
    match info.delimiter with
    | none => return textStop start value 1 0
    | some delimiter => return textStop start value 2 delimiter.length
  | .string info value => do
    let start ← info.place?
    let delimiter ← info.delimiter
    if isTriple delimiter then
      return start.below start (Text.lines value.toList).length delimiter.length
    else
      return textStop start value 1 delimiter.length
  | .variable info name => info.place?.map (·.advance name.length)
  | .alias info segments =>
    match segments.getLast? with
    | some (.name text) => info.last.map (·.advance text.length)
    | _ => none
  | .block info _ => info.closingStop?
  | .call info _ _ => info.closingStop?.or info.place?
  | .remoteCall info _ _ name _ =>
    info.closingStop?.or <| info.place?.map
      (·.advance ((name.map String.length).getD 0 + if info.noParens then 0 else parenthesesWidth))
  | .access info .. => info.closingStop?
  | .qualifiedTuple info .. => info.closingStop?
  | .embedded info _ => info.closingStop?
  | .interpolation info pieces =>
    info.place?.bind fun start => (interpolationStop pieces (delimiterOf info) start).toOption
  | .interpolatedAtom info bodyInfo pieces =>
    bodyInfo.place?.bind fun start => (interpolationStop pieces (delimiterOf info) start).toOption
  | .bitstring info _ => info.closingStop?.map (·.advance bitstringSurplus)
  | .sigil info _ _ pieces modifiers => (sigilStop info pieces modifiers).toOption
  | _ => none

/-- The width that a node adds to a stop on some line: that of an operator in front of its operand
which itself stands on another line. -/
def Node.unaryWidth (line : Nat) : Node → Nat
  | .call info name args =>
    match callForm name args with
    | .unary _ => if info.line = some (line : Int) then 0 else name.length
    | _ => 0
  | _ => 0

namespace Value

/-- The child that a value starts with. -/
def leftStep : Value → Option Value
  | .sequence items => items.head?
  | .node n => n.leftStep
  | _ => none

/-- The child that a value stops with. -/
def rightStep : Value → Option Value
  | .sequence items => items.getLast?
  | .node n => n.rightStep
  | _ => none

/-- The position that a value without a child in front starts at. -/
def opening? : Value → Option Position
  | .node n => n.opening?
  | _ => none

/-- Where a value without a child at its end stops. -/
def ownStop? : Value → Option Position
  | .node n => n.ownStop?
  | _ => none

/-- The width that a value adds to a stop on some line. -/
def unaryWidth (line : Nat) : Value → Nat
  | .node n => n.unaryWidth line
  | _ => 0

end Value

theorem mem_ends_of_head? {α : Type} {x : α} {xs : List α} (h : xs.head? = some x) : x ∈ ends xs := by
  cases xs with
  | nil => cases h
  | cons first rest =>
      cases h
      exact List.mem_cons_self

theorem mem_ends_of_getLast? {α : Type} {x : α} {xs : List α} (h : xs.getLast? = some x) :
    x ∈ ends xs := by
  cases xs with
  | nil => cases h
  | cons first rest =>
      rw [List.getLast?_cons, Option.some.injEq] at h
      cases hrest : rest.getLast? with
      | none =>
          rw [hrest] at h
          cases h
          exact List.mem_cons_self
      | some last =>
          rw [hrest] at h
          cases h
          exact List.mem_cons_of_mem _ (Option.mem_toList.mpr hrest)

/-- The left walk goes to a child that the rule looks at. -/
theorem Value.mem_visited_of_leftStep {v c : Value} (h : v.leftStep = some c) : c ∈ v.visited := by
  cases v with
  | sequence items => exact mem_ends_of_head? h
  | node n =>
      simp only [leftStep] at h
      simp only [visited]
      cases n with
      | «alias» info segments =>
          unfold Node.leftStep at h
          split at h
          case h_1 n rest heq =>
              cases heq
              cases h
              exact List.mem_cons_self
          all_goals simp_all
      | block info items =>
          simp only [Node.leftStep] at h
          simp only [Node.visited]
          split_ifs at h ⊢ with hclosing
          obtain ⟨child, hchild, rfl⟩ := Option.map_eq_some_iff.mp h
          exact List.mem_map_of_mem (mem_ends_of_head? hchild)
      | call info name args =>
          simp only [Node.leftStep] at h
          simp only [Node.visited]
          cases hform : callForm name args with
          | between first last =>
              rw [hform] at h
              cases h
              exact List.mem_cons_self
          | unary operand =>
              rw [hform] at h
              cases h
          | plain =>
              rw [hform] at h
              cases h
      | pair info key value =>
          cases h
          exact List.mem_cons_self
      | remoteCall info dotInfo receiver name args =>
          cases h
          exact List.mem_cons_self
      | access info subject key =>
          cases h
          exact List.mem_cons_self
      | qualifiedTuple info receiver items =>
          cases h
          exact List.mem_cons_self
      | _ => cases h
  | _ => cases h

/-- The right walk goes to a child that the rule looks at. -/
theorem Value.mem_visited_of_rightStep {v c : Value} (h : v.rightStep = some c) : c ∈ v.visited := by
  cases v with
  | sequence items => exact mem_ends_of_getLast? h
  | node n =>
      simp only [rightStep] at h
      simp only [visited]
      cases n with
      | «alias» info segments =>
          simp only [Node.rightStep] at h
          simp only [Node.visited]
          split at h
          case h_1 n hlast =>
              cases h
              exact List.mem_flatMap.mpr ⟨.node n, mem_ends_of_getLast? hlast, List.mem_cons_self⟩
          case h_2 => cases h
      | block info items =>
          simp only [Node.rightStep] at h
          simp only [Node.visited]
          split_ifs at h ⊢ with hclosing
          obtain ⟨child, hchild, rfl⟩ := Option.map_eq_some_iff.mp h
          exact List.mem_map_of_mem (mem_ends_of_getLast? hchild)
      | call info name args =>
          simp only [Node.rightStep] at h
          simp only [Node.visited]
          cases hform : callForm name args with
          | between first last =>
              rw [hform] at h
              cases h
              exact List.mem_cons_of_mem _ List.mem_cons_self
          | unary operand =>
              rw [hform] at h
              cases h
              exact List.mem_cons_self
          | plain =>
              rw [hform] at h
              exact Option.mem_toList.mpr h
      | pair info key value =>
          cases h
          exact List.mem_cons_of_mem _ List.mem_cons_self
      | remoteCall info dotInfo receiver name args =>
          exact List.mem_cons_of_mem _ (Option.mem_toList.mpr h)
      | _ => cases h
  | _ => cases h

theorem head?_or_getLast?_of_mem_ends {α : Type} {x : α} {xs : List α} (h : x ∈ ends xs) :
    xs.head? = some x ∨ xs.getLast? = some x := by
  cases xs with
  | nil => cases h
  | cons first rest =>
      rcases List.mem_cons.mp h with rfl | hlast
      · exact .inl rfl
      · refine .inr ?_
        rw [List.getLast?_cons, Option.mem_toList.mp hlast]
        rfl

/-- The rule of a value looks at no other children than the two walks do. -/
theorem Value.leftStep_or_rightStep_of_mem_visited {v c : Value} (h : c ∈ v.visited) :
    v.leftStep = some c ∨ v.rightStep = some c := by
  cases v with
  | sequence items => exact head?_or_getLast?_of_mem_ends h
  | node n =>
      simp only [visited] at h
      simp only [leftStep, rightStep]
      cases n with
      | «alias» info segments =>
          obtain ⟨segment, hsegment, hc⟩ := List.mem_flatMap.mp h
          cases segment with
          | name text => cases hc
          | node n =>
              obtain rfl := List.mem_singleton.mp hc
              rcases head?_or_getLast?_of_mem_ends hsegment with hhead | hlast
              · obtain ⟨rest, rfl⟩ := List.head?_eq_some_iff.mp hhead
                exact .inl rfl
              · refine .inr ?_
                simp only [Node.rightStep, hlast]
      | block info items =>
          simp only [Node.visited] at h
          simp only [Node.leftStep, Node.rightStep]
          split_ifs at h ⊢ with hclosing
          · cases h
          · obtain ⟨child, hchild, rfl⟩ := List.mem_map.mp h
            rcases head?_or_getLast?_of_mem_ends hchild with hhead | hlast
            · exact .inl (by rw [hhead]; rfl)
            · exact .inr (by rw [hlast]; rfl)
      | call info name args =>
          simp only [Node.visited] at h
          simp only [Node.leftStep, Node.rightStep]
          cases hform : callForm name args with
          | between first last =>
              rw [hform] at h
              simpa [eq_comm] using h
          | unary operand =>
              rw [hform] at h
              simpa [eq_comm] using h
          | plain =>
              rw [hform] at h
              exact .inr (Option.mem_toList.mp h)
      | pair info key value => simpa [Node.visited, Node.leftStep, Node.rightStep, eq_comm] using h
      | remoteCall info dotInfo receiver name args =>
          rcases List.mem_cons.mp h with rfl | hlast
          · exact .inl rfl
          · exact .inr (Option.mem_toList.mp hlast)
      | access info subject key =>
          obtain rfl := List.mem_singleton.mp h
          exact .inl rfl
      | qualifiedTuple info receiver items =>
          obtain rfl := List.mem_singleton.mp h
          exact .inl rfl
      | _ => cases h
  | _ => cases h

/-! ### One rule -/

@[simp]
theorem Position.advance_zero (p : Position) : p.advance 0 = p := rfl

theorem Position.advance_eq_self_iff {p : Position} {width : Nat} :
    p.advance width = p ↔ width = 0 := by
  constructor
  · intro h
    have hcolumn := congrArg Position.column h
    rw [column_advance] at hcolumn
    omega
  · rintro rfl
    rfl

theorem Position.advance_advance (p : Position) (a b : Nat) :
    (p.advance a).advance b = p.advance (a + b) := by
  simp only [advance, Nat.add_assoc]

/-- The start is that of the child in front, or else the opening position. -/
def Value.StartsBy (within : Value → Except Fault Span) (v : Value) (start : Position) : Prop :=
  match v.leftStep with
  | some c => ∃ span, within c = .ok span ∧ start = span.start
  | none => v.opening? = some start

/-- The stop is that of the child at the end, with the width of an operator that stands on another
line, or else the value's own stop. -/
def Value.StopsBy (within : Value → Except Fault Span) (v : Value) (stop : Position) : Prop :=
  match v.rightStep with
  | some c => ∃ span, within c = .ok span ∧ stop = span.stop.advance (v.unaryWidth span.stop.line)
  | none => v.ownStop? = some stop

namespace Layout

variable {within : Value → Except Fault Span} {info : Metadata} {kind : String} {span : Span}

theorem between_eq_ok {first last : Value} (h : between within first last = .ok span) :
    (∃ front, within first = .ok front ∧ span.start = front.start) ∧
      ∃ back, within last = .ok back ∧ span.stop = back.stop := by
  simp only [between, bind_eq_ok_iff] at h
  obtain ⟨front, hfront, back, hback, hspan⟩ := h
  cases hspan
  exact ⟨⟨front, hfront, rfl⟩, back, hback, rfl⟩

theorem hull_eq_ok {first : Value} {rest : List Value}
    (h : hull within (first :: rest) = .ok span) :
    (∃ front, within first = .ok front ∧ span.start = front.start) ∧
      ∃ back, within (rest.getLast?.getD first) = .ok back ∧ span.stop = back.stop := by
  rw [hull_cons] at h
  cases hlast : rest.getLast? with
  | none =>
      rw [hlast] at h
      exact ⟨⟨span, h, rfl⟩, span, h, rfl⟩
  | some last =>
      rw [hlast] at h
      exact between_eq_ok h

theorem enclosedSpan_eq_ok (h : enclosedSpan info kind = .ok span) :
    info.place? = some span.start ∧ info.closingStop? = some span.stop := by
  simp only [enclosedSpan, bind_eq_ok_iff, Metadata.position_eq_ok_iff,
    Metadata.closingSpan_eq_ok_iff] at h
  obtain ⟨start, hstart, stop, hstop, rfl⟩ := h
  exact ⟨hstart, hstop⟩

theorem frontedSpan_eq_ok {front : Node} (h : frontedSpan within info kind front = .ok span) :
    (∃ span', within (.node front) = .ok span' ∧ span.start = span'.start) ∧
      info.closingStop? = some span.stop := by
  simp only [frontedSpan, bind_eq_ok_iff, Metadata.closingSpan_eq_ok_iff] at h
  obtain ⟨span', hfront, stop, hstop, rfl⟩ := h
  exact ⟨⟨span', hfront, rfl⟩, hstop⟩

theorem bitstringSpan_eq_ok (h : bitstringSpan info = .ok span) :
    info.place? = some span.start ∧
      info.closingStop?.map (·.advance bitstringSurplus) = some span.stop := by
  simp only [bitstringSpan, bind_eq_ok_iff] at h
  obtain ⟨inner, hinner, hspan⟩ := h
  cases hspan
  obtain ⟨hstart, hstop⟩ := enclosedSpan_eq_ok hinner
  exact ⟨hstart, by rw [hstop]; rfl⟩

theorem aliasFrom_eq_ok {start : Position} {last : Segment}
    (h : aliasFrom info start last within = .ok span) :
    span.start = start ∧
      (∀ n, last = .node n → ∃ back, within (.node n) = .ok back ∧ span.stop = back.stop) ∧
      ∀ text, last = .name text → info.last.map (·.advance text.length) = some span.stop := by
  cases last with
  | node n =>
      simp only [aliasFrom, bind_eq_ok_iff] at h
      obtain ⟨back, hback, hspan⟩ := h
      cases hspan
      refine ⟨rfl, ?_, ?_⟩
      · rintro _ ⟨⟩
        exact ⟨back, hback, rfl⟩
      · rintro _ ⟨⟩
  | name text =>
      simp only [aliasFrom, bind_eq_ok_iff, need_eq_ok_iff] at h
      obtain ⟨p, hlast, hspan⟩ := h
      cases hspan
      refine ⟨rfl, ?_, ?_⟩
      · rintro _ ⟨⟩
      · rintro _ ⟨⟩
        rw [hlast]
        rfl

theorem aliasSpan_eq_ok {first : Segment} {rest : List Segment}
    (h : aliasSpan within info (first :: rest) = .ok span) :
    (∀ n, first = .node n → ∃ front, within (.node n) = .ok front ∧ span.start = front.start) ∧
      (∀ text, first = .name text → info.place? = some span.start) ∧
      ∃ start, aliasFrom info start (rest.getLast?.getD first) within = .ok span := by
  rw [aliasSpan_cons] at h
  cases first with
  | node n =>
      obtain ⟨front, hfront, h⟩ := bind_eq_ok_iff.mp h
      refine ⟨?_, ?_, front.start, h⟩
      · rintro _ ⟨⟩
        exact ⟨front, hfront, (aliasFrom_eq_ok h).1⟩
      · rintro _ ⟨⟩
  | name text =>
      obtain ⟨start, hstart, h⟩ := bind_eq_ok_iff.mp h
      rw [Metadata.position_eq_ok_iff, ← (aliasFrom_eq_ok h).1] at hstart
      refine ⟨?_, fun _ _ => hstart, start, h⟩
      rintro _ ⟨⟩

theorem unarySpan_eq_ok {name : String} {operand : Child}
    (h : unarySpan within info name operand = .ok span) :
    info.place? = some span.start ∧ ∃ back, within operand.toValue = .ok back ∧
      span.stop = back.stop.advance
        (if info.line = some (back.stop.line : Int) then 0 else name.length) := by
  simp only [unarySpan, bind_eq_ok_iff, Metadata.position_eq_ok_iff] at h
  obtain ⟨start, hstart, back, hback, h⟩ := h
  have hline : info.line = some (start.line : Int) := (Metadata.coordinates_of_place? hstart).1
  split_ifs at h with hsame
  · cases h
    refine ⟨hstart, back, hback, ?_⟩
    rw [hline, hsame, if_pos rfl, Position.advance_zero]
  · cases h
    refine ⟨hstart, back, hback, ?_⟩
    rw [hline, if_neg]
    intro heq
    exact hsame (Int.ofNat.inj (Option.some.inj heq)).symm

theorem callFrom_eq_ok {start : Position} {args : List Child} {bare : Except Fault Span}
    (h : callFrom info kind start args bare within = .ok span) :
    match lastArgument? info args with
    | some c => ∃ back, within c = .ok back ∧ span = ⟨start, back.stop⟩
    | none => (∃ stop, info.closingStop? = some stop ∧ span = ⟨start, stop⟩) ∨
        info.closingStop? = none ∧ bare = .ok span := by
  unfold callFrom at h
  unfold lastArgument?
  split_ifs at h ⊢ with hclosing
  · exact .inl (Metadata.closingSpan_eq_ok_iff.mp h)
  · have hnone : info.closingStop? = none :=
      Metadata.closingStop?_eq_none (Bool.eq_false_iff.mpr hclosing)
    cases hlast : args.getLast? with
    | none =>
        rw [hlast] at h
        exact .inr ⟨hnone, h⟩
    | some last =>
        rw [hlast] at h
        obtain ⟨back, hback, hspan⟩ := bind_eq_ok_iff.mp h
        cases hspan
        exact ⟨back, hback, rfl⟩

end Layout

/-- The rule of a node takes the start from the left step and the stop from the right step. -/
theorem Node.layout_ends {within : Value → Except Fault Span} {n : Node} {span : Span}
    (h : n.layout within = .ok span) :
    (Value.node n).StartsBy within span.start ∧ (Value.node n).StopsBy within span.stop := by
  simp only [Value.StartsBy, Value.StopsBy, Value.leftStep, Value.rightStep, Value.opening?,
    Value.ownStop?, Value.unaryWidth]
  cases n with
  | bare info => cases h
  | dot info receiver name => cases h
  | number info value =>
      simp only [layout, numberSpan, bind_eq_ok_iff, Metadata.position_eq_ok_iff,
        need_eq_ok_iff] at h
      obtain ⟨start, hstart, token, htoken, hspan⟩ := h
      cases hspan
      exact ⟨hstart, by simp [rightStep, ownStop?, hstart, htoken]⟩
  | atom info value =>
      simp only [layout, atomSpan, bind_eq_ok_iff, Metadata.position_eq_ok_iff] at h
      obtain ⟨start, hstart, h⟩ := h
      cases hdelimiter : info.delimiter with
      | none =>
          rw [hdelimiter] at h
          cases h
          exact ⟨hstart, by simp [rightStep, ownStop?, hstart, hdelimiter]⟩
      | some delimiter =>
          rw [hdelimiter] at h
          cases h
          exact ⟨hstart, by simp [rightStep, ownStop?, hstart, hdelimiter]⟩
  | string info value =>
      simp only [layout, stringSpan, bind_eq_ok_iff, Metadata.position_eq_ok_iff,
        need_eq_ok_iff] at h
      obtain ⟨start, hstart, delimiter, hdelimiter, h⟩ := h
      split_ifs at h with htriple
      · cases h
        exact ⟨hstart, by simp [rightStep, ownStop?, hstart, hdelimiter, htriple]⟩
      · cases h
        exact ⟨hstart, by simp [rightStep, ownStop?, hstart, hdelimiter, htriple]⟩
  | «variable» info name =>
      simp only [layout, variableSpan, bind_eq_ok_iff, Metadata.position_eq_ok_iff] at h
      obtain ⟨start, hstart, hspan⟩ := h
      cases hspan
      exact ⟨hstart, by simp [rightStep, ownStop?, hstart]⟩
  | «alias» info segments =>
      cases segments with
      | nil => cases h
      | cons first rest =>
          obtain ⟨hnode, hname, start, hback⟩ := aliasSpan_eq_ok h
          obtain ⟨-, hbackNode, hbackName⟩ := aliasFrom_eq_ok hback
          constructor
          · cases first with
            | node n => exact hnode n rfl
            | name text => exact hname text rfl
          · simp only [rightStep, ownStop?, unaryWidth, List.getLast?_cons]
            cases hlast : rest.getLast?.getD first with
            | node n => exact hbackNode n hlast
            | name text => exact hbackName text hlast
  | block info items =>
      simp only [layout, blockSpan_eq] at h
      simp only [leftStep, rightStep, ownStop?, unaryWidth]
      split_ifs at h ⊢ with hclosing
      · exact enclosedSpan_eq_ok h
      · cases items with
        | nil => cases h
        | cons first rest =>
            obtain ⟨hfront, hback⟩ := hull_eq_ok h
            refine ⟨hfront, ?_⟩
            simp only [List.getLast?_cons, Option.map_some]
            rw [List.getLast?_map] at hback
            cases hlast : rest.getLast? with
            | none =>
                rw [hlast] at hback
                exact hback
            | some last =>
                rw [hlast] at hback
                exact hback
  | pair info key value => exact between_eq_ok h
  | call info name args =>
      simp only [layout, callSpan_eq] at h
      simp only [leftStep, rightStep, ownStop?, unaryWidth, opening?, Node.info]
      cases hform : callForm name args with
      | between first last =>
          rw [hform] at h
          exact between_eq_ok h
      | unary operand =>
          rw [hform] at h
          exact unarySpan_eq_ok h
      | plain =>
          rw [hform] at h
          simp only [plainCallSpan_eq, bind_eq_ok_iff, Metadata.position_eq_ok_iff] at h
          obtain ⟨start, hstart, h⟩ := h
          have hends := callFrom_eq_ok h
          cases hlast : lastArgument? info args with
          | some c =>
              rw [hlast] at hends
              obtain ⟨back, hback, rfl⟩ := hends
              exact ⟨hstart, back, hback, rfl⟩
          | none =>
              rw [hlast] at hends
              rcases hends with ⟨stop, hstop, rfl⟩ | ⟨hnone, hbare⟩
              · exact ⟨hstart, by simp [hstop]⟩
              · cases hbare
                exact ⟨hstart, by simp [hnone, hstart]⟩
  | remoteCall info dotInfo receiver name args =>
      simp only [layout, remoteCallSpan_eq, bind_eq_ok_iff] at h
      obtain ⟨front, hfront, h⟩ := h
      simp only [leftStep, rightStep, ownStop?, unaryWidth]
      have hends := callFrom_eq_ok h
      cases hlast : lastArgument? info args with
      | some c =>
          rw [hlast] at hends
          obtain ⟨back, hback, rfl⟩ := hends
          exact ⟨⟨front, hfront, rfl⟩, back, hback, rfl⟩
      | none =>
          rw [hlast] at hends
          rcases hends with ⟨stop, hstop, rfl⟩ | ⟨hnone, hbare⟩
          · exact ⟨⟨front, hfront, rfl⟩, by simp [hstop]⟩
          · simp only [bareRemoteCall, bind_eq_ok_iff, Metadata.position_eq_ok_iff] at hbare
            obtain ⟨own, hown, hspan⟩ := hbare
            cases hspan
            exact ⟨⟨front, hfront, rfl⟩, by simp [hnone, hown]⟩
  | access info subject key => exact frontedSpan_eq_ok h
  | qualifiedTuple info receiver items => exact frontedSpan_eq_ok h
  | embedded info expr => exact enclosedSpan_eq_ok h
  | interpolation info pieces =>
      simp only [layout, interpolationSpan, bind_eq_ok_iff, Metadata.position_eq_ok_iff] at h
      obtain ⟨start, hstart, stop, hstop, hspan⟩ := h
      cases hspan
      exact ⟨hstart, by simp [rightStep, ownStop?, hstart, hstop, Except.toOption]⟩
  | interpolatedAtom info bodyInfo pieces =>
      simp only [layout, interpolatedAtomSpan, bind_eq_ok_iff, Metadata.position_eq_ok_iff] at h
      obtain ⟨start, hstart, stop, hstop, hspan⟩ := h
      cases hspan
      exact ⟨hstart, by simp [rightStep, ownStop?, hstart, hstop, Except.toOption]⟩
  | bitstring info items => exact bitstringSpan_eq_ok h
  | sigil info letter bodyInfo pieces modifiers =>
      simp only [layout, sigilSpan, bind_eq_ok_iff, Metadata.position_eq_ok_iff] at h
      obtain ⟨start, hstart, stop, hstop, hspan⟩ := h
      cases hspan
      exact ⟨hstart, by simp [rightStep, ownStop?, hstop, Except.toOption]⟩

/-- The rule of a value takes the start from the left step and the stop from the right step. -/
theorem Value.layout_ends {within : Value → Except Fault Span} {v : Value} {span : Span}
    (h : v.layout within = .ok span) : v.StartsBy within span.start ∧ v.StopsBy within span.stop := by
  cases v with
  | sequence items =>
      cases items with
      | nil => cases h
      | cons first rest =>
          obtain ⟨hfront, hback⟩ := hull_eq_ok h
          refine ⟨hfront, ?_⟩
          simp only [StopsBy, rightStep, List.getLast?_cons]
          exact hback
  | node n => exact n.layout_ends h
  | _ => cases h

/-! ### The walks -/

namespace Value

variable {tooDeep : Value → Fault} {budget : Nat} {v c : Value} {span : Span}

/-- Where the left walk from a value ends. -/
def leftAnchor (v : Value) : Value :=
  match _hstep : v.leftStep with
  | none => v
  | some c => c.leftAnchor
termination_by v.rank
decreasing_by exact rank_lt_of_mem_visited (mem_visited_of_leftStep _hstep)

/-- The values that the right walk from a value passes, the value itself and the last included. -/
def rightSpine (v : Value) : List Value :=
  match _hstep : v.rightStep with
  | none => [v]
  | some c => v :: c.rightSpine
termination_by v.rank
decreasing_by exact rank_lt_of_mem_visited (mem_visited_of_rightStep _hstep)

/-- Where the right walk from a value ends. -/
def rightAnchor (v : Value) : Value :=
  v.rightSpine.getLastD v

/-- The width that the operators on the right walk add to a stop on some line. -/
def spineWidth (v : Value) (line : Nat) : Nat :=
  (v.rightSpine.map (unaryWidth line)).sum

theorem leftAnchor_of_none (h : v.leftStep = none) : v.leftAnchor = v := by
  rw [leftAnchor]
  split <;> simp_all

theorem leftAnchor_of_some (h : v.leftStep = some c) : v.leftAnchor = c.leftAnchor := by
  rw [leftAnchor]
  split <;> simp_all

theorem rightSpine_of_none (h : v.rightStep = none) : v.rightSpine = [v] := by
  rw [rightSpine]
  split <;> simp_all

theorem rightSpine_of_some (h : v.rightStep = some c) : v.rightSpine = v :: c.rightSpine := by
  rw [rightSpine]
  split <;> simp_all

theorem rightSpine_ne_nil (v : Value) : v.rightSpine ≠ [] := by
  rw [rightSpine]
  split <;> simp

theorem rightAnchor_of_none (h : v.rightStep = none) : v.rightAnchor = v := by
  rw [rightAnchor, rightSpine_of_none h]
  rfl

theorem rightAnchor_of_some (h : v.rightStep = some c) : v.rightAnchor = c.rightAnchor := by
  rw [rightAnchor, rightAnchor, rightSpine_of_some h, List.getLastD_cons,
    List.getLastD_eq_getLast?, List.getLastD_eq_getLast?,
    List.getLast?_eq_some_getLast c.rightSpine_ne_nil]
  rfl

/-- An operator is never the end of the right walk. -/
theorem unaryWidth_of_none (h : v.rightStep = none) (line : Nat) : v.unaryWidth line = 0 := by
  cases v with
  | node n =>
      cases n with
      | call info name args =>
          simp only [rightStep, Node.rightStep] at h
          simp only [unaryWidth, Node.unaryWidth]
          split <;> simp_all
      | _ => rfl
  | _ => rfl

theorem spineWidth_of_none (h : v.rightStep = none) (line : Nat) : v.spineWidth line = 0 := by
  rw [spineWidth, rightSpine_of_none h, List.map_singleton, List.sum_singleton,
    unaryWidth_of_none h]

theorem spineWidth_of_some (h : v.rightStep = some c) (line : Nat) :
    v.spineWidth line = v.unaryWidth line + c.spineWidth line := by
  rw [spineWidth, rightSpine_of_some h, List.map_cons, List.sum_cons, spineWidth]

/-- The start of a span is the opening position of the value at which the left walk ends. -/
theorem opening?_leftAnchor (h : spanAt tooDeep budget v = .ok span) :
    v.leftAnchor.opening? = some span.start := by
  induction budget generalizing v span with
  | zero => cases h
  | succ budget ih =>
      have hstart := (layout_ends h).1
      unfold StartsBy at hstart
      cases hstep : v.leftStep with
      | none =>
          rw [hstep] at hstart
          rw [leftAnchor_of_none hstep]
          exact hstart
      | some c =>
          rw [hstep] at hstart
          obtain ⟨front, hfront, hstart⟩ := hstart
          rw [leftAnchor_of_some hstep, ih hfront, hstart]

/-- The stop of a span is the own stop of the value at which the right walk ends, with the widths
that the walk has met added to its column. -/
theorem ownStop?_rightAnchor (h : spanAt tooDeep budget v = .ok span) :
    ∃ stop, v.rightAnchor.ownStop? = some stop ∧
      span.stop = stop.advance (v.spineWidth stop.line) := by
  induction budget generalizing v span with
  | zero => cases h
  | succ budget ih =>
      have hstop := (layout_ends h).2
      unfold StopsBy at hstop
      cases hstep : v.rightStep with
      | none =>
          rw [hstep] at hstop
          refine ⟨span.stop, ?_, ?_⟩
          · rw [rightAnchor_of_none hstep]
            exact hstop
          · rw [spineWidth_of_none hstep, Position.advance_zero]
      | some c =>
          rw [hstep] at hstop
          obtain ⟨back, hback, hstop⟩ := hstop
          obtain ⟨stop, hanchor, hadvance⟩ := ih hback
          -- The widths met further down have moved the column and not the line, so the operator at
          -- hand is compared with the same line as they were.
          refine ⟨stop, ?_, ?_⟩
          · rw [rightAnchor_of_some hstep]
            exact hanchor
          · rw [hstop, spineWidth_of_some hstep, hadvance, Position.advance_advance,
              Position.line_advance, Nat.add_comm]

/-- The span of a value is found by two walks. Its start is the position recorded for the value at
which the left walk ends. Its stop lies on the line on which the value at which the right walk ends
stops by itself, and further right by the widths of the operators on that walk which stand on
another line. -/
theorem span_eq_spine_walks {machine : Machine} {maxDepth : Nat} {v : Value} {span : Span}
    (h : v.span machine maxDepth = .ok span) :
    v.leftAnchor.opening? = some span.start ∧
      ∃ stop, v.rightAnchor.ownStop? = some stop ∧ span.stop.line = stop.line ∧
        span.stop.column = stop.column + (v.rightSpine.map (unaryWidth stop.line)).sum := by
  rw [span_eq_ok_iff] at h
  obtain ⟨stop, hanchor, hstop⟩ := ownStop?_rightAnchor h
  refine ⟨opening?_leftAnchor h, stop, hanchor, ?_, ?_⟩
  · rw [hstop, Position.line_advance]
  · rw [hstop, Position.column_advance, spineWidth]

end Value

namespace Options

open Value

/-- The two walks find the span under options that do not ask for comments. -/
theorem spanOf_eq_spine_walks {machine : Machine} {options : Options} {v : Value} {span : Span}
    (hplain : options.includeComments = false) (h : options.spanOf v machine = .ok span) :
    v.leftAnchor.opening? = some span.start ∧
      ∃ stop, v.rightAnchor.ownStop? = some stop ∧ span.stop.line = stop.line ∧
        span.stop.column = stop.column + (v.rightSpine.map (unaryWidth stop.line)).sum := by
  rw [spanOf_plain hplain] at h
  exact span_eq_spine_walks h

/-- An operator in front of brackets that close two lines further down. -/
def negatedBlock : Value :=
  .node (.call { line := some 1, column := some 1 } "-"
    [.node (.block { line := some 1, column := some 2, closing := some ⟨3, 1, by decide, by decide⟩ }
      [])])

/-- The brackets stop in column two of line three, and the operator adds one to it. -/
theorem spanOf_negatedBlock :
    default.spanOf negatedBlock = .ok ⟨⟨1, 1, by decide, by decide⟩, ⟨3, 3, by decide, by decide⟩⟩ ∧
      ∃ stop, negatedBlock.rightAnchor.ownStop? = some stop ∧ 3 = stop.line ∧
        3 = stop.column + (negatedBlock.rightSpine.map (unaryWidth stop.line)).sum := by
  have hspan : default.spanOf negatedBlock =
      .ok ⟨⟨1, 1, by decide, by decide⟩, ⟨3, 3, by decide, by decide⟩⟩ := rfl
  exact ⟨hspan, (spanOf_eq_spine_walks rfl hspan).2⟩

end Options

end SourceSpan
