import SourceSpan.Proofs.Depth
import SourceSpan.Proofs.Refusal
import SourceSpan.Proofs.Spine
import SourceSpan.Report

/-!
# What a fault says is so

A fault is reported with a kind and sometimes an entry. Some rules report under the kind of another
node than the one they belong to: an interpolated literal under that of its embedded expressions, an
interpolated atom under that of its body. Wherever a fault comes from, there is a value that the
computation has reached and that has the defect which the fault names.

`Value.OwnFault` lists the faults that the rule of a value can raise on its own account. A rule passes
on the faults of the children it looks at and raises no others, so that the faults of a computation
are those of the values it reaches, and the refusal to go deeper.
-/

namespace SourceSpan

open Layout

/-! ### What rules read -/

/-- The entries of the metadata of a shape that some rule asks for. -/
def Shape.fieldsRead : Shape → List Field
  | .bare | .pair | .dot | .interpolatedAtom => []
  | .atom | .variable | .block | .call | .remoteCall | .interpolation => [.line, .column]
  | .number => [.line, .column, .token]
  | .string | .sigil => [.line, .column, .delimiter]
  | .alias => [.line, .column, .last]
  | .access | .qualifiedTuple => [.closing]
  | .embedded | .bitstring => [.line, .column, .closing]

/-- The metadata of a node and of the body of an interpolated atom, with the shape that each belongs
to. -/
def Node.holders : Node → List (Shape × Metadata)
  | .interpolatedAtom info bodyInfo _ => [(.interpolatedAtom, info), (.interpolation, bodyInfo)]
  | n => [(n.shape, n.info)]

def Piece.holders : Piece → List (Shape × Metadata)
  | .text _ => []
  | .embedded info _ => [(.embedded, info)]

/-- All metadata that the rule of a node may read: its holders and the embedded expressions of an
interpolated literal. -/
def Node.records (n : Node) : List (Shape × Metadata) :=
  n.holders ++ n.pieces.flatMap Piece.holders

/-- The value has nothing that could be measured, or no rule to measure it by. -/
inductive Value.Unmeasurable : Value → Prop
  | emptySequence : Unmeasurable (.sequence [])
  | emptyAlias (info : Metadata) : Unmeasurable (.node (.alias info []))
  | emptyBlock (info : Metadata) (h : info.hasClosing = false) :
      Unmeasurable (.node (.block info []))
  | noRule {v : Value} (h : v.hasRule = false) : Unmeasurable v

/-- The faults that the rule of a value raises by itself, each with the defect that it names. -/
inductive Value.OwnFault : Value → Fault → Prop
  | missing {n : Node} {shape : Shape} {info : Metadata} {field : Field}
      (hrecord : (shape, info) ∈ n.records) (hfield : field ∈ shape.fieldsRead)
      (habsent : info.entry? field = none) : OwnFault (.node n) (.missing shape.kind field)
  | outside {n : Node} {shape : Shape} {info : Metadata} {line column : Int}
      (hholder : (shape, info) ∈ n.holders) (hline : info.line = some line)
      (hcolumn : info.column = some column) (hlow : line < 1 ∨ column < 1) :
      OwnFault (.node n) (.outside line column)
  | emptySequence : OwnFault (.sequence []) .emptySequence
  | emptyAlias (info : Metadata) : OwnFault (.node (.alias info [])) .emptyAlias
  | emptyBlock (info : Metadata) (h : info.hasClosing = false) :
      OwnFault (.node (.block info [])) .emptyBlock
  | unrecognized {v : Value} (h : v.hasRule = false) : OwnFault v (.unrecognized v)

/-! ### Reading metadata -/

theorem bind_eq_error_iff {α β : Type} {x : Except Fault α} {next : α → Except Fault β}
    {fault : Fault} :
    x >>= next = .error fault ↔ x = .error fault ∨ ∃ a, x = .ok a ∧ next a = .error fault := by
  cases x with
  | error fault' => simp [bind, Except.bind]
  | ok a => simp [bind, Except.bind]

theorem need_eq_error_iff {α : Type} {kind : String} {field : Field} {entry : Option α}
    {fault : Fault} :
    need kind field entry = .error fault ↔ entry = none ∧ fault = .missing kind field := by
  cases entry <;> simp [need, eq_comm]

theorem Position.ofInts_eq_error {line column : Int} {fault : Fault}
    (h : Position.ofInts line column = .error fault) :
    (line < 1 ∨ column < 1) ∧ fault = .outside line column := by
  unfold ofInts ofInts? at h
  split_ifs at h with hbounds
  cases h
  exact ⟨by omega, rfl⟩

namespace Value

variable {n : Node} {info : Metadata} {fault : Fault}

/-- A holder without an entry that is asked for is at fault. -/
theorem ownFault_of_need {α : Type} (shape : Shape) {field : Field} {entry : Option α}
    {content : α → Metadata.Entry} (hholder : (shape, info) ∈ n.holders)
    (hread : field ∈ shape.fieldsRead) (hentry : info.entry? field = entry.map content)
    (h : need shape.kind field entry = .error fault) : (node n).OwnFault fault := by
  obtain ⟨hnone, rfl⟩ := need_eq_error_iff.mp h
  refine .missing (List.mem_append_left _ hholder) hread ?_
  rw [hentry, hnone, Option.map_none]

/-- A holder without a position is at fault. -/
theorem ownFault_of_position (shape : Shape) (hholder : (shape, info) ∈ n.holders)
    (hread : [.line, .column] ⊆ shape.fieldsRead) (h : info.position shape.kind = .error fault) :
    (node n).OwnFault fault := by
  rcases bind_eq_error_iff.mp h with h | ⟨line, hline, h⟩
  · exact ownFault_of_need shape hholder (hread List.mem_cons_self) rfl h
  · rcases bind_eq_error_iff.mp h with h | ⟨column, hcolumn, h⟩
    · have hcolumnRead := hread (List.mem_cons_of_mem _ List.mem_cons_self)
      exact ownFault_of_need shape hholder hcolumnRead rfl h
    · obtain ⟨hlow, rfl⟩ := Position.ofInts_eq_error h
      exact .outside hholder (need_eq_ok_iff.mp hline) (need_eq_ok_iff.mp hcolumn) hlow

/-- A holder without a closing token is at fault. -/
theorem ownFault_of_closingSpan (shape : Shape) (hholder : (shape, info) ∈ n.holders)
    (hread : .closing ∈ shape.fieldsRead) {start : Position}
    (h : info.closingSpan shape.kind start = .error fault) : (node n).OwnFault fault := by
  rcases bind_eq_error_iff.mp h with h | ⟨_, -, h⟩
  · unfold Metadata.closingStop at h
    split at h
    · cases h
    · rcases bind_eq_error_iff.mp h with h | ⟨_, -, h⟩
      · exact ownFault_of_need shape hholder hread rfl h
      · cases h
  · cases h

theorem ownFault_of_enclosedSpan (shape : Shape) (hholder : (shape, info) ∈ n.holders)
    (hread : [.line, .column, .closing] ⊆ shape.fieldsRead)
    (h : enclosedSpan info shape.kind = .error fault) : (node n).OwnFault fault := by
  rcases bind_eq_error_iff.mp h with h | ⟨_, -, h⟩
  · refine ownFault_of_position shape hholder (fun field hfield => hread ?_) h
    exact List.mem_append_left [.closing] hfield
  · exact ownFault_of_closingSpan shape hholder (hread (by decide)) h

/-- An embedded expression without a brace is at fault, and not the literal around it. -/
theorem ownFault_of_interpolationStop {delimiter : String} {start : Position}
    (h : interpolationStop n.pieces delimiter start = .error fault) : (node n).OwnFault fault := by
  obtain ⟨⟨info, expr, hpiece, hclosing⟩, rfl⟩ := interpolationStop_eq_error_iff.mp h
  have hrecord : (Shape.embedded, info) ∈ n.records :=
    List.mem_append_right _ (List.mem_flatMap.mpr ⟨_, hpiece, List.mem_cons_self⟩)
  refine .missing hrecord (by decide) ?_
  rw [Metadata.entry?, hclosing, Option.map_none]

end Value

/-! ### One rule -/

namespace Layout

variable {within : Value → Except Fault Span} {fault : Fault}

/-- One of these values is at fault. -/
def Blames (within : Value → Except Fault Span) (asked : List Value) (fault : Fault) : Prop :=
  ∃ c ∈ asked, within c = .error fault

theorem between_eq_error {first last : Value} (h : between within first last = .error fault) :
    Blames within [first, last] fault := by
  rcases bind_eq_error_iff.mp h with hfirst | ⟨_, -, h⟩
  · exact ⟨first, List.mem_cons_self, hfirst⟩
  · rcases bind_eq_error_iff.mp h with hlast | ⟨_, -, h⟩
    · exact ⟨last, List.mem_cons_of_mem _ List.mem_cons_self, hlast⟩
    · cases h

theorem hull_eq_error {first : Value} {rest : List Value}
    (h : hull within (first :: rest) = .error fault) :
    Blames within (ends (first :: rest)) fault := by
  rw [hull_cons] at h
  cases hlast : rest.getLast? with
  | none =>
      rw [hlast] at h
      exact ⟨first, List.mem_cons_self, h⟩
  | some last =>
      rw [hlast] at h
      obtain ⟨c, hc, hfault⟩ := between_eq_error h
      refine ⟨c, ?_, hfault⟩
      rw [ends, hlast]
      exact hc

/-- The rest of an alias fails for want of a recorded last name, or because of a node at its end. -/
theorem aliasFrom_eq_error {info : Metadata} {start : Position} {last : Segment}
    (h : aliasFrom info start last within = .error fault) :
    need Shape.alias.kind .last info.last = .error fault ∨ Blames within last.visited fault := by
  cases last with
  | node n =>
      rcases bind_eq_error_iff.mp h with hn | ⟨_, -, h⟩
      · exact .inr ⟨.node n, List.mem_cons_self, hn⟩
      · cases h
  | name text =>
      rcases bind_eq_error_iff.mp h with hlast | ⟨_, -, h⟩
      · exact .inl hlast
      · cases h

theorem callFrom_eq_error {info : Metadata} {kind : String} {start : Position} {args : List Child}
    {bare : Except Fault Span} (h : callFrom info kind start args bare within = .error fault) :
    bare = .error fault ∨ Blames within (lastArgument? info args).toList fault := by
  unfold callFrom at h
  unfold lastArgument?
  split_ifs at h ⊢ with hclosing
  · obtain ⟨stop, hstop⟩ := Metadata.exists_closingStop? hclosing
    rw [Metadata.closingSpan_of_closingStop? hstop] at h
    cases h
  · cases hlast : args.getLast? with
    | none =>
        rw [hlast] at h
        exact .inl h
    | some last =>
        rw [hlast] at h
        rcases bind_eq_error_iff.mp h with hlast | ⟨_, -, h⟩
        · exact .inr ⟨last.toValue, List.mem_cons_self, hlast⟩
        · cases h

end Layout

namespace Node

variable {within : Value → Except Fault Span} {fault : Fault}

theorem alias_eq_error {info : Metadata} {segments : List Segment}
    (h : (Node.alias info segments).layout within = .error fault) :
    (Value.node (.alias info segments)).OwnFault fault ∨
      Blames within (Node.alias info segments).visited fault := by
  cases segments with
  | nil =>
      cases h
      exact .inl (.emptyAlias info)
  | cons first rest =>
      have hsegment : ∀ segment ∈ ends (first :: rest), Blames within segment.visited fault →
          Blames within (Node.alias info (first :: rest)).visited fault := by
        rintro segment hsegment ⟨c, hc, hfault⟩
        exact ⟨c, List.mem_flatMap.mpr ⟨segment, hsegment, hc⟩, hfault⟩
      have hback : ∀ start,
          aliasFrom info start (rest.getLast?.getD first) within = .error fault →
            (Value.node (.alias info (first :: rest))).OwnFault fault ∨
              Blames within (Node.alias info (first :: rest)).visited fault := by
        intro start h
        rcases aliasFrom_eq_error h with h | hblames
        · exact .inl (Value.ownFault_of_need .alias List.mem_cons_self (by decide) rfl h)
        · exact .inr (hsegment _ (mem_ends_of_getLast? List.getLast?_cons) hblames)
      cases first with
      | node n =>
          rw [layout, aliasSpan_cons] at h
          rcases bind_eq_error_iff.mp h with h | ⟨front, -, h⟩
          · exact .inr ⟨.node n, List.mem_cons_self, h⟩
          · exact hback front.start h
      | name text =>
          rw [layout, aliasSpan_cons] at h
          rcases bind_eq_error_iff.mp h with h | ⟨start, -, h⟩
          · exact .inl (Value.ownFault_of_position .alias List.mem_cons_self (by decide) h)
          · exact hback start h

theorem block_eq_error {info : Metadata} {items : List Child}
    (h : (block info items).layout within = .error fault) :
    (Value.node (block info items)).OwnFault fault ∨
      Blames within (block info items).visited fault := by
  rw [layout, blockSpan_eq] at h
  simp only [visited]
  split_ifs at h ⊢ with hclosing
  · rcases bind_eq_error_iff.mp h with h | ⟨start, -, h⟩
    · exact .inl (Value.ownFault_of_position .block List.mem_cons_self (by decide) h)
    · obtain ⟨stop, hstop⟩ := Metadata.exists_closingStop? hclosing
      rw [Metadata.closingSpan_of_closingStop? hstop] at h
      cases h
  · cases items with
    | nil =>
        cases h
        exact .inl (.emptyBlock info (Bool.eq_false_iff.mpr hclosing))
    | cons first rest =>
        refine .inr ?_
        rw [map_ends]
        exact hull_eq_error h

theorem call_eq_error {info : Metadata} {name : String} {args : List Child}
    (h : (call info name args).layout within = .error fault) :
    (Value.node (call info name args)).OwnFault fault ∨
      Blames within (call info name args).visited fault := by
  rw [layout, callSpan_eq] at h
  simp only [visited]
  cases hform : callForm name args with
  | between first last =>
      rw [hform] at h
      exact .inr (between_eq_error h)
  | unary operand =>
      rw [hform] at h
      rcases bind_eq_error_iff.mp h with h | ⟨start, -, h⟩
      · exact .inl (Value.ownFault_of_position .call List.mem_cons_self (by decide) h)
      · rcases bind_eq_error_iff.mp h with h | ⟨span, -, h⟩
        · exact .inr ⟨_, List.mem_cons_self, h⟩
        · split_ifs at h <;> cases h
  | plain =>
      simp only [hform, plainCallSpan_eq] at h
      rcases bind_eq_error_iff.mp h with h | ⟨start, -, h⟩
      · exact .inl (Value.ownFault_of_position .call List.mem_cons_self (by decide) h)
      · rcases callFrom_eq_error h with h | hblames
        · cases h
        · exact .inr hblames

theorem remoteCall_eq_error {info dotInfo : Metadata} {receiver : Node} {name : Option String}
    {args : List Child}
    (h : (remoteCall info dotInfo receiver name args).layout within = .error fault) :
    (Value.node (remoteCall info dotInfo receiver name args)).OwnFault fault ∨
      Blames within (remoteCall info dotInfo receiver name args).visited fault := by
  simp only [layout, remoteCallSpan_eq] at h
  rcases bind_eq_error_iff.mp h with h | ⟨front, -, h⟩
  · exact .inr ⟨_, List.mem_cons_self, h⟩
  · rcases callFrom_eq_error h with h | ⟨c, hc, hfault⟩
    · rcases bind_eq_error_iff.mp h with h | ⟨own, -, h⟩
      · exact .inl (Value.ownFault_of_position .remoteCall List.mem_cons_self (by decide) h)
      · cases h
    · exact .inr ⟨c, List.mem_cons_of_mem _ hc, hfault⟩

theorem frontedSpan_eq_error {n front : Node} {info : Metadata} (shape : Shape)
    (hholder : (shape, info) ∈ n.holders) (hread : .closing ∈ shape.fieldsRead)
    (h : frontedSpan within info shape.kind front = .error fault) :
    (Value.node n).OwnFault fault ∨ Blames within [.node front] fault := by
  rcases bind_eq_error_iff.mp h with h | ⟨span, -, h⟩
  · exact .inr ⟨_, List.mem_cons_self, h⟩
  · exact .inl (Value.ownFault_of_closingSpan shape hholder hread h)

theorem sigil_eq_error {info bodyInfo : Metadata} {letter modifiers : String} {pieces : List Piece}
    (h : (sigil info letter bodyInfo pieces modifiers).layout within = .error fault) :
    (Value.node (sigil info letter bodyInfo pieces modifiers)).OwnFault fault := by
  rcases bind_eq_error_iff.mp h with h | ⟨start, hstart, h⟩
  · exact Value.ownFault_of_position .sigil List.mem_cons_self (by decide) h
  · rcases bind_eq_error_iff.mp h with h | ⟨stop, -, h⟩
    · rw [sigilStop, hstart] at h
      rcases bind_eq_error_iff.mp h with h | ⟨delimiter, -, h⟩
      · cases h
      · rcases bind_eq_error_iff.mp h with h | ⟨delimiter, -, h⟩
        · exact Value.ownFault_of_need .sigil List.mem_cons_self (by decide) rfl h
        · rcases bind_eq_error_iff.mp h with h | ⟨bodyStop, -, h⟩
          · exact Value.ownFault_of_interpolationStop h
          · split_ifs at h <;> cases h
    · cases h

/-- A rule raises a fault of its own or passes on that of a child it looks at. -/
theorem layout_eq_error {n : Node} (h : n.layout within = .error fault) :
    (Value.node n).OwnFault fault ∨ Blames within n.visited fault := by
  cases n with
  | bare info =>
      cases h
      exact .inl (.unrecognized rfl)
  | dot info receiver name =>
      cases h
      exact .inl (.unrecognized rfl)
  | number info value =>
      rcases bind_eq_error_iff.mp h with h | ⟨_, -, h⟩
      · exact .inl (Value.ownFault_of_position .number List.mem_cons_self (by decide) h)
      · rcases bind_eq_error_iff.mp h with h | ⟨_, -, h⟩
        · exact .inl (Value.ownFault_of_need .number List.mem_cons_self (by decide) rfl h)
        · cases h
  | atom info value =>
      rcases bind_eq_error_iff.mp h with h | ⟨_, -, h⟩
      · exact .inl (Value.ownFault_of_position .atom List.mem_cons_self (by decide) h)
      · split at h <;> cases h
  | string info value =>
      rcases bind_eq_error_iff.mp h with h | ⟨_, -, h⟩
      · exact .inl (Value.ownFault_of_position .string List.mem_cons_self (by decide) h)
      · rcases bind_eq_error_iff.mp h with h | ⟨_, -, h⟩
        · exact .inl (Value.ownFault_of_need .string List.mem_cons_self (by decide) rfl h)
        · split_ifs at h <;> cases h
  | «variable» info name =>
      rcases bind_eq_error_iff.mp h with h | ⟨_, -, h⟩
      · exact .inl (Value.ownFault_of_position .variable List.mem_cons_self (by decide) h)
      · cases h
  | «alias» info segments => exact alias_eq_error h
  | block info items => exact block_eq_error h
  | pair info key value => exact .inr (between_eq_error h)
  | call info name args => exact call_eq_error h
  | remoteCall info dotInfo receiver name args => exact remoteCall_eq_error h
  | access info subject key =>
      exact frontedSpan_eq_error .access List.mem_cons_self (by decide) h
  | qualifiedTuple info receiver items =>
      exact frontedSpan_eq_error .qualifiedTuple List.mem_cons_self (by decide) h
  | embedded info expr =>
      exact .inl (Value.ownFault_of_enclosedSpan .embedded List.mem_cons_self (by decide) h)
  | bitstring info items =>
      rcases bind_eq_error_iff.mp h with h | ⟨_, -, h⟩
      · exact .inl (Value.ownFault_of_enclosedSpan .bitstring List.mem_cons_self (by decide) h)
      · cases h
  | interpolation info pieces =>
      rcases bind_eq_error_iff.mp h with h | ⟨_, -, h⟩
      · exact .inl (Value.ownFault_of_position .interpolation List.mem_cons_self (by decide) h)
      · rcases bind_eq_error_iff.mp h with h | ⟨_, -, h⟩
        · exact .inl (Value.ownFault_of_interpolationStop h)
        · cases h
  | interpolatedAtom info bodyInfo pieces =>
      rcases bind_eq_error_iff.mp h with h | ⟨_, -, h⟩
      · have hbody : (Shape.interpolation, bodyInfo) ∈
            (interpolatedAtom info bodyInfo pieces).holders :=
          List.mem_cons_of_mem _ List.mem_cons_self
        exact .inl (Value.ownFault_of_position .interpolation hbody (by decide) h)
      · rcases bind_eq_error_iff.mp h with h | ⟨_, -, h⟩
        · exact .inl (Value.ownFault_of_interpolationStop h)
        · cases h
  | sigil info letter bodyInfo pieces modifiers => exact .inl (sigil_eq_error h)

end Node

theorem Value.layout_eq_error {within : Value → Except Fault Span} {v : Value} {fault : Fault}
    (h : v.layout within = .error fault) : v.OwnFault fault ∨ Blames within v.visited fault := by
  cases v with
  | sequence items =>
      cases items with
      | nil =>
          cases h
          exact .inl .emptySequence
      | cons first rest => exact .inr (hull_eq_error h)
  | node n => exact Node.layout_eq_error h
  | _ =>
      cases h
      exact .inl (.unrecognized rfl)

/-! ### A computation -/

namespace Value

/-- The fault of a computation with a budget is that of a value within the budget, or the refusal of
a value just beyond it. -/
theorem spanAt_eq_error {tooDeep : Value → Fault} {budget : Nat} {v : Value} {fault : Fault}
    (h : spanAt tooDeep budget v = .error fault) :
    (∃ depth < budget, ∃ w ∈ v.atDepth depth, w.OwnFault fault) ∨
      ∃ w ∈ v.atDepth budget, fault = tooDeep w := by
  induction budget generalizing v with
  | zero =>
      cases h
      exact .inr ⟨v, List.mem_cons_self, rfl⟩
  | succ budget ih =>
      rcases layout_eq_error h with hown | ⟨c, hc, hfault⟩
      · exact .inl ⟨0, Nat.succ_pos budget, v, List.mem_cons_self, hown⟩
      · rcases ih hfault with ⟨depth, hdepth, w, hw, hown⟩ | ⟨w, hw, hdeep⟩
        · have hbelow : w ∈ v.atDepth (depth + 1) := List.mem_flatMap.mpr ⟨c, hc, hw⟩
          exact .inl ⟨depth + 1, Nat.succ_lt_succ hdepth, w, hbelow, hown⟩
        · exact .inr ⟨w, List.mem_flatMap.mpr ⟨c, hc, hw⟩, hdeep⟩

/-- The rule of a node descends into nodes and into bare groups of nodes. -/
theorem exists_child_of_mem_visited {n : Node} {w : Value} (hw : w ∈ n.visited) :
    ∃ child : Child, w = child.toValue := by
  cases n with
  | «alias» info segments =>
      obtain ⟨segment, -, hw⟩ := List.mem_flatMap.mp hw
      cases segment with
      | name text => cases hw
      | node n => exact ⟨.node n, List.mem_singleton.mp hw⟩
  | block info items =>
      simp only [Node.visited] at hw
      split_ifs at hw
      · cases hw
      · obtain ⟨child, -, rfl⟩ := List.mem_map.mp hw
        exact ⟨child, rfl⟩
  | pair info key value =>
      rcases List.mem_pair.mp hw with rfl | rfl
      · exact ⟨.node key, rfl⟩
      · exact ⟨.node value, rfl⟩
  | call info name args =>
      simp only [Node.visited] at hw
      split at hw
      case h_1 first last _ =>
          rcases List.mem_pair.mp hw with rfl | rfl
          · exact ⟨first, rfl⟩
          · exact ⟨last, rfl⟩
      case h_2 operand _ => exact ⟨operand, List.mem_singleton.mp hw⟩
      case h_3 =>
          obtain ⟨child, -, rfl⟩ := mem_of_lastArgument? (Option.mem_toList.mp hw)
          exact ⟨child, rfl⟩
  | remoteCall info dotInfo receiver name args =>
      rcases List.mem_cons.mp hw with rfl | hw
      · exact ⟨.node receiver, rfl⟩
      · obtain ⟨child, -, rfl⟩ := mem_of_lastArgument? (Option.mem_toList.mp hw)
        exact ⟨child, rfl⟩
  | access info subject key => exact ⟨.node subject, List.mem_singleton.mp hw⟩
  | qualifiedTuple info receiver items => exact ⟨.node receiver, List.mem_singleton.mp hw⟩
  | _ => cases hw

theorem exists_child_of_mem_atDepth {child : Child} {depth : Nat} {w : Value}
    (hw : w ∈ child.toValue.atDepth depth) : ∃ child' : Child, w = child'.toValue := by
  induction depth generalizing child with
  | zero => exact ⟨child, List.mem_singleton.mp hw⟩
  | succ depth ih =>
      obtain ⟨c, hc, hw⟩ := List.mem_flatMap.mp hw
      cases child with
      | node n =>
          obtain ⟨child', rfl⟩ := exists_child_of_mem_visited hc
          exact ih hw
      | group ns =>
          obtain ⟨n, -, rfl⟩ := List.mem_map.mp (mem_of_mem_ends hc)
          exact @ih (.node n) hw

/-- The kinds of nodes and groups that cannot be measured. -/
theorem Unmeasurable.kind_mem {child : Child} (h : child.toValue.Unmeasurable) :
    child.toValue.kind ∈ ["node", "dot", "alias", "block", "sequence"] := by
  cases child with
  | group ns => simp [Child.toValue, Value.kind]
  | node n =>
      cases h with
      | emptyAlias info => simp [Child.toValue, kind, Node.kind, Node.shape, Shape.kind]
      | emptyBlock info h => simp [Child.toValue, kind, Node.kind, Node.shape, Shape.kind]
      | noRule h =>
          cases n with
          | bare info => simp [Child.toValue, kind, Node.kind, Node.shape, Shape.kind]
          | dot info receiver name => simp [Child.toValue, kind, Node.kind, Node.shape, Shape.kind]
          | _ => cases h

end Value

theorem Comment.column_of_startColumn {comment : Comment} (h : comment.startColumn < 1) :
    comment.column = some comment.startColumn := by
  unfold startColumn at h ⊢
  split at h
  case h_1 => exact absurd h (by decide)
  case h_2 => exact absurd h (by decide)
  case h_3 column _ hcolumn => exact hcolumn

/-- Widening fails only if the first comment is recorded in front of the first column. -/
theorem Span.widen_eq_error {span : Span} {v : Value} {fault : Fault}
    (h : span.widen v = .error fault) :
    ∃ first column, v.comments.head? = some first ∧ first.column = some column ∧ column < 1 ∧
      fault = .outside first.line column := by
  unfold widen at h
  split at h
  case h_1 => cases h
  case h_2 first rest hcomments =>
      rcases bind_eq_error_iff.mp h with h | ⟨_, -, h⟩
      · obtain ⟨hlow, rfl⟩ := Position.ofInts_eq_error h
        have hline := first.line_pos
        have hstart := span.start.column_pos
        have hcolumn : first.startColumn < 1 := by omega
        have hmin : min (span.start.column : Int) first.startColumn = first.startColumn := by omega
        refine ⟨first, first.startColumn, ?_, first.column_of_startColumn hcolumn, hcolumn, ?_⟩
        · rw [hcomments, List.head?_cons]
        · rw [hmin]
      · cases h

/-! ### Under options -/

namespace Options

/-- What a report says about a computation for a value is so. A missing entry is one that the rule
of its kind reads, and is not recorded for a node that was reached, for the body of an interpolated
atom or for an embedded expression of a literal that was reached. A malformed value was reached and
cannot be measured; below a node it can only be of a few kinds. A value that lies too deep lies one
level below what is allowed, unless the report stands for a refusal whose text is nested too deeply
to be written. A refused position is that of a node or body that was reached, or that of the first
comment when comments are asked for. -/
inductive Explains (machine : Machine) (options : Options) (v : Value) : Report → Prop
  | missing {n : Node} {shape : Shape} {info : Metadata} {field : Field}
      (hreached : v.Reaches (machine.reach options.maxDepth) (.node n))
      (hrecord : (shape, info) ∈ n.records) (hfield : field ∈ shape.fieldsRead)
      (habsent : info.entry? field = none) :
      Explains machine options v (.missing (.text shape.kind) (.text field.name))
  | malformed {w message : Value} (hreached : v.Reaches (machine.reach options.maxDepth) w)
      (hw : w.Unmeasurable)
      (hkind : (∃ n, v = .node n) → w.kind ∈ ["node", "dot", "alias", "block", "sequence"]) :
      Explains machine options v (.malformed message (.text w.kind))
  | tooDeep {w : Value} (hdepth : w ∈ v.atDepth (machine.reach options.maxDepth + 1)) :
      Explains machine options v (.tooDeep (.int options.maxDepth)
        (.text (if options.maxDepth ≤ machine.levels then w.kind else v.kind)))
  | nested {w : Value} (hreached : v.Reaches (machine.reach options.maxDepth) w)
      (hrule : w.hasRule = false) (hhurdle : machine.hurdle? v w = some .nesting) :
      Explains machine options v (.tooDeep (.int options.maxDepth) (.text v.kind))
  | longNumber {w : Value} (hreached : v.Reaches (machine.reach options.maxDepth) w)
      (hrule : w.hasRule = false) (hhurdle : machine.hurdle? v w = some .digits) :
      Explains machine options v (.badValue [.text longNumberText])
  | coordinates {n : Node} {shape : Shape} {info : Metadata} {line column : Int}
      (hreached : v.Reaches (machine.reach options.maxDepth) (.node n))
      (hholder : (shape, info) ∈ n.holders) (hline : info.line = some line)
      (hcolumn : info.column = some column) (hlow : line < 1 ∨ column < 1) :
      Explains machine options v (.rejected ⟨"Position", coordinateIssues line column⟩)
  | comment {first : Comment} {column : Int} (hcomments : options.includeComments = true)
      (hfirst : v.comments.head? = some first) (hcolumn : first.column = some column)
      (hlow : column < 1) :
      Explains machine options v (.rejected ⟨"Position", coordinateIssues first.line column⟩)

variable {machine : Machine} {options : Options} {v : Value} {fault : Fault}

/-- The own fault of a value that was reached is reported as it is, but for a refusal that cannot be
written. -/
theorem explains_of_ownFault {w : Value} (hreached : v.Reaches (machine.reach options.maxDepth) w)
    (h : w.OwnFault fault) :
    Explains machine options v (machine.raised options.maxDepth v fault).report := by
  have hmalformed : ∀ message : Value, w.Unmeasurable →
      Explains machine options v (.malformed message (.text w.kind)) := by
    intro message hw
    refine .malformed hreached hw ?_
    rintro ⟨n, rfl⟩
    obtain ⟨depth, -, hdepth⟩ := hreached
    obtain ⟨child, rfl⟩ := @Value.exists_child_of_mem_atDepth (.node n) _ _ hdepth
    exact hw.kind_mem
  cases h with
  | missing hrecord hfield habsent => exact .missing hreached hrecord hfield habsent
  | outside hholder hline hcolumn hlow => exact .coordinates hreached hholder hline hcolumn hlow
  | emptySequence => exact hmalformed _ .emptySequence
  | emptyAlias info => exact hmalformed _ (.emptyAlias info)
  | emptyBlock info h => exact hmalformed _ (.emptyBlock info h)
  | unrecognized hrule =>
      rw [Machine.raised]
      cases hhurdle : machine.hurdle? v w with
      | none => exact hmalformed _ (.noRule hrule)
      | some hurdle =>
          cases hurdle with
          | nesting => exact .nested hreached hrule hhurdle
          | digits => exact .longNumber hreached hrule hhurdle

theorem explains_of_span (h : v.span machine options.maxDepth = .error fault) :
    Explains machine options v fault.report := by
  obtain ⟨found, hfound, rfl⟩ := Value.span_eq_error_iff.mp h
  rcases Value.spanAt_eq_error hfound with ⟨depth, hdepth, w, hw, hown⟩ | ⟨w, hw, rfl⟩
  · exact explains_of_ownFault ⟨depth, Nat.lt_succ_iff.mp hdepth, hw⟩ hown
  · have hdeep := Explains.tooDeep hw
    unfold Machine.depthFault
    split_ifs at hdeep ⊢ with hlevels
    · exact hdeep
    · exact hdeep

theorem explains_of_spanOf (h : options.spanOf v machine = .error fault) :
    Explains machine options v fault.report := by
  rcases bind_eq_error_iff.mp h with h | ⟨span, -, h⟩
  · exact explains_of_span h
  · split_ifs at h with hcomments
    · obtain ⟨first, column, hfirst, hcolumn, hlow, rfl⟩ := Span.widen_eq_error h
      exact .comment hcomments hfirst hcolumn hlow
    · cases h

/-- Only a refusal that holds too long a number is of another type. -/
theorem Explains.typeName_mem {report : Report} (h : Explains machine options v report)
    (hdigits : ∀ w, v.Reaches (machine.reach options.maxDepth) w → w.hasRule = false →
      machine.hurdle? v w ≠ some .digits) :
    report.typeName ∈
      ["MissingMetadata", "MalformedNode", "NestingTooDeep", "ValidationError"] := by
  cases h with
  | longNumber hreached hrule hhurdle => exact absurd hhurdle (hdigits _ hreached hrule)
  | _ => simp [Report.typeName]

theorem Explains.typeName_not_mem {report : Report} (h : Explains machine options v report) :
    report.typeName ∉ ["IndexError", "AttributeError", "TypeError", "KeyError"] := by
  cases h <;> simp [Report.typeName]

theorem Explains.ne_missing_closing {report : Report} (h : Explains machine options v report)
    {kind : String} (hkind : kind ∈ ["block", "call", "remote_call"]) :
    report ≠ .missing (.text kind) (.text "closing") := by
  rintro rfl
  generalize hreport : Report.missing (.text kind) (.text "closing") = report at h
  cases h with
  | @missing n shape info field _ _ hfield _ =>
      simp only [Report.missing.injEq, Value.text.injEq] at hreport
      obtain ⟨rfl, hname⟩ := hreport
      have htable : ∀ shape ∈ Shape.all, shape.kind ∈ ["block", "call", "remote_call"] →
          ∀ field ∈ shape.fieldsRead, "closing" ≠ field.name := by decide
      exact htable shape shape.mem_all hkind field hfield hname
  | _ => cases hreport

/-- A call on an interpolated atom, one of whose expressions has no recorded brace. -/
def callOnAtom : Value :=
  .node (.remoteCall { } { } (.interpolatedAtom { } { line := some 1, column := some 2 }
    [.text "a", .embedded { } (.variable { } "x")]) (some "f") [])

/-- A number on its own. -/
def tenToThe (exponent : Nat) : Value :=
  .number (.whole (10 ^ exponent))

theorem isLong_tenToThe {exponent : Nat} (h : Burden.digitLimit ≤ exponent) :
    (tenToThe exponent).burden.isLong = true := by
  simp only [tenToThe, Value.burden, Numeral.burden, Burden.ofInt, decide_eq_true_eq]
  have hbase : Int.natAbs 10 = 10 := rfl
  rw [Int.natAbs_pow, hbase]
  generalize Burden.digitLimit = limit at h ⊢
  exact Nat.pow_le_pow_right (Nat.succ_pos 9) h

end Options

end SourceSpan
