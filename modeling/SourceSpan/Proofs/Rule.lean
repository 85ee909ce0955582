import SourceSpan.Proofs.Descent

/-!
# What a rule can do

A rule sees the spans of children only through the function it is given, so all it can do is ask for
children one after the other and then answer or refuse. The rule of a value that has nothing wrong
about itself asks for exactly its visited children, in order, and then answers. The rule of a value
with a defect of its own asks for some of them and then refuses.

`Value.layout_asks` states this for all shapes at once, and it is all that later modules know about
when a rule succeeds and which fault it passes on.
-/

namespace SourceSpan

open Layout

/-! ### Asking -/

/-- How a value is measured, given the spans of its children. -/
abbrev Rule := (Value → Except Fault Span) → Except Fault Span

namespace Rule

/-- The rule asks for these values in this order, as long as they have spans. One without a defect
asks for all of them and then answers; one with a defect refuses at some point. -/
inductive Asks : Bool → Rule → List Value → Prop
  | answer {rule : Rule} (span : Span) (h : ∀ within, rule within = .ok span) : Asks false rule []
  | refuse {rule : Rule} {asked : List Value} (fault : Fault)
      (h : ∀ within, rule within = .error fault) : Asks true rule asked
  | ask {defective : Bool} {rule : Rule} {c : Value} {rest : List Value} (next : Span → Rule)
      (h : ∀ within, rule within = within c >>= fun span => next span within)
      (hnext : ∀ span, Asks defective (next span) rest) : Asks defective rule (c :: rest)

variable {defective : Bool} {rule : Rule} {asked : List Value}
  {within within' : Value → Except Fault Span}

/-- A rule succeeds exactly if it has no defect and all values it asks for have spans. -/
theorem Asks.isOk_iff (h : Asks defective rule asked) :
    (∃ span, rule within = .ok span) ↔
      defective = false ∧ ∀ c ∈ asked, ∃ span, within c = .ok span := by
  induction h with
  | answer span h => simp [h]
  | refuse fault h => simp [h]
  | @ask defective rule c rest next h _ ih =>
      rw [h]
      cases hc : within c with
      | error fault => simp [hc, bind, Except.bind]
      | ok span => simpa [hc, bind, Except.bind] using ih span

/-- The outcome of a rule without a defect: the fault of the first value that it asks for and that
has one, and otherwise a span. -/
theorem Asks.outcome (h : Asks false rule asked) {bad : Value → Option Fault}
    (hbad : ∀ c ∈ asked, ∀ fault, bad c = some fault → within c = .error fault)
    (hgood : ∀ c ∈ asked, bad c = none → ∃ span, within c = .ok span) :
    match asked.findSome? bad with
    | some fault => rule within = .error fault
    | none => ∃ span, rule within = .ok span := by
  generalize hdefective : false = defective at h
  induction h with
  | answer span h => exact ⟨span, h within⟩
  | refuse fault h => cases hdefective
  | @ask _ rule c rest next h _ ih =>
      rw [h, List.findSome?_cons]
      cases hc : bad c with
      | some fault => rw [hbad c List.mem_cons_self fault hc]; rfl
      | none =>
          obtain ⟨span, hspan⟩ := hgood c List.mem_cons_self hc
          rw [hspan]
          exact ih span (fun c' hc' => hbad c' (List.mem_cons_of_mem _ hc'))
            (fun c' hc' => hgood c' (List.mem_cons_of_mem _ hc')) hdefective

/-- A rule whose outcome is not among some faults has the same outcome wherever its children do,
those with such faults excepted. -/
theorem Asks.agree (h : Asks defective rule asked) {F : Fault → Prop}
    (hwithin : ∀ c ∈ asked, (∀ fault, within c = .error fault → ¬F fault) → within' c = within c)
    (hrule : ∀ fault, rule within = .error fault → ¬F fault) : rule within' = rule within := by
  induction h with
  | answer span h => rw [h, h]
  | refuse fault h => rw [h, h]
  | @ask defective rule c rest next h _ ih =>
      rw [h] at hrule ⊢
      rw [h within]
      cases hc : within c with
      | error fault =>
          have hfault : within' c = within c := by
            apply hwithin c List.mem_cons_self
            intro fault' hfault'
            apply hrule
            rw [hfault']
            rfl
          rw [hfault, hc]
          rfl
      | ok span =>
          have hspan : within' c = within c := by
            apply hwithin c List.mem_cons_self
            intro fault hfault
            rw [hc] at hfault
            cases hfault
          rw [hspan, hc]
          rw [hc] at hrule
          exact ih span (fun c' hc' => hwithin c' (List.mem_cons_of_mem _ hc')) hrule

/-- A rule depends on nothing but the spans of the values it asks for. -/
theorem Asks.congr (h : Asks defective rule asked) (hwithin : ∀ c ∈ asked, within' c = within c) :
    rule within' = rule within :=
  h.agree (F := fun _ => False) (fun c hc _ => hwithin c hc) (fun _ _ => id)

end Rule

/-! ### Entries of the metadata -/

theorem bind_eq_ok_iff {α β : Type} {x : Except Fault α} {next : α → Except Fault β} {b : β} :
    x >>= next = .ok b ↔ ∃ a, x = .ok a ∧ next a = .ok b := by
  cases x with
  | error fault => simp [bind, Except.bind]
  | ok a => simp [bind, Except.bind]

theorem need_eq_ok_iff {α : Type} {kind : String} {field : Field} {entry : Option α} {a : α} :
    need kind field entry = .ok a ↔ entry = some a := by
  cases entry <;> simp [need]

namespace Metadata

variable {info : Metadata} {kind : String}

/-- The node's own position, if both coordinates are recorded and are at least one. -/
def place? (info : Metadata) : Option Position :=
  match info.line, info.column with
  | some line, some column => Position.ofInts? line column
  | _, _ => none

theorem position_of_place? {p : Position} (h : info.place? = some p) :
    info.position kind = .ok p := by
  unfold place? at h
  split at h
  case h_1 line column hline hcolumn =>
      simp [position, hline, hcolumn, need, Position.ofInts, h, bind, Except.bind]
  case h_2 => cases h

theorem position_eq_ok_iff {p : Position} : info.position kind = .ok p ↔ info.place? = some p := by
  constructor
  · intro h
    simp only [position, bind_eq_ok_iff, need_eq_ok_iff] at h
    obtain ⟨line, hline, column, hcolumn, h⟩ := h
    unfold Position.ofInts at h
    split at h
    case h_1 q hq =>
        cases h
        simp only [place?, hline, hcolumn, hq]
    case h_2 => cases h
  · exact position_of_place?

theorem coordinates_of_place? {p : Position} (h : info.place? = some p) :
    info.line = some (p.line : Int) ∧ info.column = some (p.column : Int) := by
  unfold place? at h
  split at h
  case h_1 line column hline hcolumn =>
      unfold Position.ofInts? at h
      split_ifs at h with hbounds
      cases h
      rw [hline, hcolumn, Int.toNat_of_nonneg (by omega), Int.toNat_of_nonneg (by omega)]
      exact ⟨rfl, rfl⟩
  case h_2 => cases h

theorem position_of_place?_eq_none (kind : String) (h : info.place? = none) :
    ∃ fault, info.position kind = .error fault := by
  unfold place? at h
  unfold position
  cases hline : info.line with
  | none => exact ⟨_, rfl⟩
  | some line =>
      cases hcolumn : info.column with
      | none => exact ⟨_, rfl⟩
      | some column =>
          simp only [hline, hcolumn] at h
          exact ⟨.outside line column, by simp [need, Position.ofInts, h, bind, Except.bind]⟩

/-- Just past the closing token, if there is one; an `end` goes before a bracket. -/
def closingStop? (info : Metadata) : Option Position :=
  match info.endWord with
  | some p => some (p.advance endWordWidth)
  | none => info.closing.map (·.advance bracketWidth)

theorem isSome_closingStop? : info.closingStop?.isSome = info.hasClosing := by
  unfold closingStop? hasClosing
  cases info.endWord <;> simp

theorem closingStop?_eq_none (h : info.hasClosing = false) : info.closingStop? = none := by
  rw [← isSome_closingStop?] at h
  exact Option.isNone_iff_eq_none.mp (Option.isSome_eq_false_iff.mp h)

theorem closingSpan_of_closingStop? {start stop : Position} (h : info.closingStop? = some stop) :
    info.closingSpan kind start = .ok ⟨start, stop⟩ := by
  unfold closingStop? at h
  unfold closingSpan closingStop
  cases hend : info.endWord with
  | some p =>
      simp only [hend, Option.some.injEq] at h
      rw [← h]
      rfl
  | none =>
      simp only [hend, Option.map_eq_some_iff] at h
      obtain ⟨p, hclosing, rfl⟩ := h
      rw [hclosing]
      rfl

theorem closingSpan_of_not_hasClosing {start : Position} (h : info.hasClosing = false) :
    info.closingSpan kind start = .error (.missing kind .closing) := by
  simp only [hasClosing, Bool.or_eq_false_iff, Option.isSome_eq_false_iff,
    Option.isNone_iff_eq_none] at h
  simp [closingSpan, closingStop, h, need, bind, Except.bind]

theorem closingSpan_eq_ok_iff {start : Position} {span : Span} :
    info.closingSpan kind start = .ok span ↔
      ∃ stop, info.closingStop? = some stop ∧ span = ⟨start, stop⟩ := by
  constructor
  · intro h
    cases hclosing : info.hasClosing with
    | false =>
        rw [closingSpan_of_not_hasClosing hclosing] at h
        cases h
    | true =>
        rw [← isSome_closingStop?] at hclosing
        obtain ⟨stop, hstop⟩ := Option.isSome_iff_exists.mp hclosing
        rw [closingSpan_of_closingStop? hstop] at h
        cases h
        exact ⟨stop, hstop, rfl⟩
  · rintro ⟨stop, hstop, rfl⟩
    exact closingSpan_of_closingStop? hstop

theorem exists_closingStop? (h : info.hasClosing = true) : ∃ stop, info.closingStop? = some stop := by
  rw [← isSome_closingStop?] at h
  exact Option.isSome_iff_exists.mp h

end Metadata

/-! ### Interpolated literals -/

/-- The pieces of an interpolated literal. -/
def Node.pieces : Node → List Piece
  | .interpolation _ pieces => pieces
  | .interpolatedAtom _ _ pieces => pieces
  | .sigil _ _ _ pieces _ => pieces
  | _ => []

/-- The closing delimiter is taken to stand at the start of its line: it is a triple one, behind an
embedded expression. -/
def Node.closesAtMargin : Node → Bool
  | .interpolation info pieces => isTriple (delimiterOf info) && hasEmbedded pieces
  | .interpolatedAtom info _ pieces => isTriple (delimiterOf info) && hasEmbedded pieces
  | .sigil info _ _ pieces _ => info.delimiter.any isTriple && hasEmbedded pieces
  | _ => false

namespace Value

def pieces : Value → List Piece
  | .node n => n.pieces
  | _ => []

def closesAtMargin : Value → Bool
  | .node n => n.closesAtMargin
  | _ => false

end Value

/-- The piece is an expression whose closing brace is not recorded. -/
def Piece.isUnclosed : Piece → Bool
  | .text _ => false
  | .embedded info _ => info.closing.isNone

namespace Layout

theorem walk_isOk {pieces : List Piece} (start here : Position)
    (h : pieces.any Piece.isUnclosed = false) : ∃ p, walk start here pieces = .ok p := by
  induction pieces generalizing here with
  | nil => exact ⟨here, rfl⟩
  | cons piece rest ih =>
      rw [List.any_cons, Bool.or_eq_false_iff] at h
      cases piece with
      | text text => exact ih _ h.2
      | embedded info expr =>
          obtain ⟨closing, hclosing⟩ := Option.isSome_iff_exists.mp
            (Option.isNone_eq_false_iff.mp h.1)
          obtain ⟨p, hp⟩ := ih (closing.advance 1) h.2
          exact ⟨p, by simp [walk, hclosing, need, hp, bind, Except.bind]⟩

theorem walk_isError {start here : Position} {pieces : List Piece}
    (h : pieces.any Piece.isUnclosed = true) :
    walk start here pieces = .error (.missing Shape.embedded.kind .closing) := by
  induction pieces generalizing here with
  | nil => cases h
  | cons piece rest ih =>
      rw [List.any_cons, Bool.or_eq_true] at h
      cases piece with
      | text text =>
          rcases h with h | h
          · cases h
          · exact ih h
      | embedded info expr =>
          cases hclosing : info.closing with
          | none => simp [walk, hclosing, need, bind, Except.bind]
          | some closing =>
              rcases h with h | h
              · simp [Piece.isUnclosed, hclosing] at h
              · simp [walk, hclosing, need, ih h, bind, Except.bind]

theorem interpolationStop_isOk {pieces : List Piece} {delimiter : String} {start : Position}
    (h : pieces.any Piece.isUnclosed = false) :
    ∃ p, interpolationStop pieces delimiter start = .ok p := by
  obtain ⟨here, hwalk⟩ := walk_isOk start start h
  simp only [interpolationStop, hwalk, bind, Except.bind, pure, Except.pure]
  split_ifs <;> exact ⟨_, rfl⟩

theorem interpolationStop_isError {pieces : List Piece} {delimiter : String} {start : Position}
    (h : pieces.any Piece.isUnclosed = true) :
    interpolationStop pieces delimiter start = .error (.missing Shape.embedded.kind .closing) := by
  simp [interpolationStop, walk_isError h, bind, Except.bind]

theorem any_isUnclosed_iff {pieces : List Piece} :
    pieces.any Piece.isUnclosed = true ↔
      ∃ info expr, .embedded info expr ∈ pieces ∧ info.closing = none := by
  rw [List.any_eq_true]
  constructor
  · rintro ⟨piece, hmem, hunclosed⟩
    cases piece with
    | text text => cases hunclosed
    | embedded info expr => exact ⟨info, expr, hmem, Option.isNone_iff_eq_none.mp hunclosed⟩
  · rintro ⟨info, expr, hmem, hclosing⟩
    exact ⟨_, hmem, Option.isNone_iff_eq_none.mpr hclosing⟩

/-- The stop of an interpolated literal is refused only for a brace that is not recorded. -/
theorem interpolationStop_eq_error_iff {pieces : List Piece} {delimiter : String}
    {start : Position} {fault : Fault} :
    interpolationStop pieces delimiter start = .error fault ↔
      (∃ info expr, .embedded info expr ∈ pieces ∧ info.closing = none) ∧
        fault = .missing Shape.embedded.kind .closing := by
  rw [← any_isUnclosed_iff]
  cases hopen : pieces.any Piece.isUnclosed with
  | true =>
      rw [interpolationStop_isError hopen, Except.error.injEq]
      exact ⟨fun h => ⟨rfl, h.symm⟩, fun h => h.2.symm⟩
  | false =>
      obtain ⟨stop, hstop⟩ : ∃ stop, interpolationStop pieces delimiter start = .ok stop :=
        interpolationStop_isOk hopen
      rw [hstop]
      exact ⟨nofun, fun h => absurd h.1 Bool.false_ne_true⟩

end Layout

/-! ### Defects -/

/-- The segment is a plain name. -/
def Segment.isName : Segment → Bool
  | .name _ => true
  | .node _ => false

/-- Something about the node itself leaves its rule without an answer, whatever its children are:
the shape has no rule, there is nothing to measure, or an entry that the rule reads is not recorded
or is no position. -/
def Node.defective : Node → Bool
  | .bare _ => true
  | .dot .. => true
  | .number info _ => info.place?.isNone || info.token.isNone
  | .atom info _ => info.place?.isNone
  | .string info _ => info.place?.isNone || info.delimiter.isNone
  | .variable info _ => info.place?.isNone
  | .alias info segments =>
    segments.isEmpty || (segments.head?.any Segment.isName && info.place?.isNone) ||
      (segments.getLast?.any Segment.isName && info.last.isNone)
  | .block info items => if info.hasClosing then info.place?.isNone else items.isEmpty
  | .pair .. => false
  | .call info name args =>
    match callForm name args with
    | .between .. => false
    | _ => info.place?.isNone
  | .remoteCall info _ _ _ args => !info.hasClosing && args.isEmpty && info.place?.isNone
  | .access info .. => !info.hasClosing
  | .qualifiedTuple info .. => !info.hasClosing
  | .embedded info _ => info.place?.isNone || !info.hasClosing
  | .interpolation info pieces => info.place?.isNone || pieces.any Piece.isUnclosed
  | .interpolatedAtom _ bodyInfo pieces => bodyInfo.place?.isNone || pieces.any Piece.isUnclosed
  | .bitstring info _ => info.place?.isNone || !info.hasClosing
  | .sigil info _ _ pieces _ =>
    info.place?.isNone || info.delimiter.isNone || pieces.any Piece.isUnclosed

/-- Something about the value itself leaves it without a span, whatever its children are. -/
def Value.defective : Value → Bool
  | .sequence items => items.isEmpty
  | .node n => n.defective
  | _ => true

/-! ### The rules -/

namespace Layout

open Rule

variable {α : Type} {defective : Bool} {asked : List Value}

/-- A rule that first needs something other than children refuses where that is missing, and else
goes on with it. -/
theorem asks_bind {x : Except Fault α} {absent : Bool} {next : α → Rule}
    (herror : absent = true → ∃ fault, x = .error fault)
    (hok : absent = false → ∃ a, x = .ok a ∧ Asks defective (next a) asked) :
    Asks (absent || defective) (fun within => x >>= fun a => next a within) asked := by
  cases absent with
  | true =>
      obtain ⟨fault, rfl⟩ := herror rfl
      exact .refuse fault fun _ => rfl
  | false =>
      obtain ⟨a, rfl, ha⟩ := hok rfl
      exact ha

theorem asks_position {info : Metadata} {kind : String} {next : Position → Rule}
    (h : ∀ p, info.place? = some p → Asks defective (next p) asked) :
    Asks (info.place?.isNone || defective)
      (fun within => info.position kind >>= fun p => next p within) asked := by
  apply asks_bind
  · intro hnone
    exact Metadata.position_of_place?_eq_none kind (Option.isNone_iff_eq_none.mp hnone)
  · intro hsome
    obtain ⟨p, hp⟩ := Option.isSome_iff_exists.mp (Option.isNone_eq_false_iff.mp hsome)
    exact ⟨p, Metadata.position_of_place? hp, h p hp⟩

theorem asks_need {entry : Option α} {kind : String} {field : Field} {next : α → Rule}
    (h : ∀ a, entry = some a → Asks defective (next a) asked) :
    Asks (entry.isNone || defective)
      (fun within => need kind field entry >>= fun a => next a within) asked := by
  apply asks_bind
  · intro hnone
    rw [Option.isNone_iff_eq_none.mp hnone]
    exact ⟨_, rfl⟩
  · intro hsome
    obtain ⟨a, rfl⟩ := Option.isSome_iff_exists.mp (Option.isNone_eq_false_iff.mp hsome)
    exact ⟨a, rfl, h a rfl⟩

theorem asks_interpolationStop {pieces : List Piece} {delimiter : String} {start : Position}
    {next : Position → Rule}
    (h : ∀ p, interpolationStop pieces delimiter start = .ok p → Asks defective (next p) asked) :
    Asks (pieces.any Piece.isUnclosed || defective)
      (fun within => interpolationStop pieces delimiter start >>= fun p => next p within) asked := by
  apply asks_bind
  · intro hopen
    exact ⟨_, interpolationStop_isError hopen⟩
  · intro hclosed
    obtain ⟨p, hp⟩ := interpolationStop_isOk hclosed
    exact ⟨p, hp, h p hp⟩

theorem asks_closingSpan (info : Metadata) (kind : String) (start : Position) :
    Asks (!info.hasClosing) (fun _ => info.closingSpan kind start) [] := by
  cases hclosing : info.hasClosing with
  | false => exact .refuse _ fun _ => Metadata.closingSpan_of_not_hasClosing hclosing
  | true =>
      obtain ⟨stop, hstop⟩ := Metadata.exists_closingStop? hclosing
      exact .answer ⟨start, stop⟩ fun _ => Metadata.closingSpan_of_closingStop? hstop

/-- A rule that only looks at one more child answers. -/
theorem asks_last (c : Value) (answer : Span → Span) :
    Asks false (fun within => within c >>= fun span => .ok (answer span)) [c] :=
  .ask (fun span _ => .ok (answer span)) (fun _ => rfl) fun _ => .answer _ fun _ => rfl

theorem asks_between (first last : Value) :
    Asks false (fun within => between within first last) [first, last] :=
  .ask (fun a within => within last >>= fun b => .ok ⟨a.start, b.stop⟩) (fun _ => rfl)
    fun a => asks_last last fun b => ⟨a.start, b.stop⟩

theorem asks_hull (first : Value) (rest : List Value) :
    Asks false (fun within => hull within (first :: rest)) (ends (first :: rest)) := by
  change Asks false (fun within => hull within (first :: rest)) (first :: rest.getLast?.toList)
  simp only [hull_cons]
  cases rest.getLast? with
  | none =>
      refine .ask (fun span _ => .ok span) (fun within => ?_) fun span => .answer _ fun _ => rfl
      cases within first <;> rfl
  | some last => exact asks_between first last

theorem asks_enclosedSpan (info : Metadata) (kind : String) :
    Asks (info.place?.isNone || !info.hasClosing) (fun _ => enclosedSpan info kind) [] :=
  asks_position fun p _ => asks_closingSpan info kind p

theorem asks_bitstringSpan (info : Metadata) :
    Asks (info.place?.isNone || !info.hasClosing) (fun _ => bitstringSpan info) [] := by
  simp only [bitstringSpan, enclosedSpan, bind_assoc]
  rw [← Bool.or_false (!info.hasClosing)]
  refine asks_position fun p _ => asks_bind ?_ ?_
  · intro habsent
    exact ⟨_, Metadata.closingSpan_of_not_hasClosing (by simpa using habsent)⟩
  · intro hclosing
    obtain ⟨stop, hstop⟩ := Metadata.exists_closingStop? (by simpa using hclosing)
    exact ⟨_, Metadata.closingSpan_of_closingStop? hstop, .answer _ fun _ => rfl⟩

theorem asks_frontedSpan (info : Metadata) (kind : String) (front : Node) :
    Asks (!info.hasClosing) (fun within => frontedSpan within info kind front) [.node front] :=
  .ask (fun span _ => info.closingSpan kind span.start) (fun _ => rfl)
    fun span => asks_closingSpan info kind span.start

/-- Where an alias that starts at `start` stops, by its last segment. -/
def aliasFrom (info : Metadata) (start : Position) (last : Segment) : Rule := fun within =>
  match last with
  | .node n => within (.node n) >>= fun span => .ok ⟨start, span.stop⟩
  | .name text => need Shape.alias.kind .last info.last >>= fun p =>
      .ok ⟨start, p.advance text.length⟩

theorem asks_aliasFrom (info : Metadata) (start : Position) (last : Segment) :
    Asks (last.isName && info.last.isNone) (aliasFrom info start last) last.visited := by
  cases last with
  | node n => exact asks_last (.node n) fun span => ⟨start, span.stop⟩
  | name text =>
      rw [Segment.isName, Bool.true_and, ← Bool.or_false info.last.isNone]
      exact asks_need fun p _ => .answer _ fun _ => rfl

theorem aliasSpan_cons (within : Value → Except Fault Span) (info : Metadata) (first : Segment)
    (rest : List Segment) : aliasSpan within info (first :: rest) =
      match first with
      | .node n => within (.node n) >>= fun front =>
          aliasFrom info front.start (rest.getLast?.getD first) within
      | .name _ => info.position Shape.alias.kind >>= fun start =>
          aliasFrom info start (rest.getLast?.getD first) within := by
  rw [aliasSpan, itemAt_zero_cons, lastItem_cons]
  cases first <;> rfl

/-- An alias asks for the nodes among its first and its last segment. The rule looks twice at a
node that is its only segment, which changes nothing. -/
theorem asks_alias (info : Metadata) (segments : List Segment) :
    Asks (Node.alias info segments).defective
      (fun within => (Node.alias info segments).layout within)
      (Node.alias info segments).visited := by
  cases segments with
  | nil => exact .refuse .emptyAlias fun _ => rfl
  | cons first rest =>
      have hlast : (first :: rest).getLast? = some (rest.getLast?.getD first) :=
        List.getLast?_cons
      have hvisited : (Node.alias info (first :: rest)).visited =
          first.visited ++ rest.getLast?.toList.flatMap Segment.visited := rfl
      simp only [hvisited, Node.layout, aliasSpan_cons, Node.defective, hlast, List.isEmpty_cons,
        Bool.false_or, List.head?_cons, Option.any_some]
      cases first with
      | name text =>
          have hsegment : (Segment.name text).visited ++
              rest.getLast?.toList.flatMap Segment.visited =
              (rest.getLast?.getD (.name text)).visited := by
            cases rest.getLast? <;> simp [Segment.visited]
          rw [hsegment, Segment.isName, Bool.true_and]
          exact asks_position fun p _ => asks_aliasFrom info p _
      | node n =>
          rw [Segment.isName, Bool.false_and, Bool.false_or]
          cases rest.getLast? with
          | none =>
              refine .ask (fun span _ => .ok span) (fun within => ?_) fun _ => .answer _ fun _ => rfl
              cases hn : within (.node n) <;> simp [hn, aliasFrom, bind, Except.bind]
          | some last =>
              have hsegment : (Segment.node n).visited ++
                  (some last).toList.flatMap Segment.visited = .node n :: last.visited := by
                simp [Segment.visited]
              rw [hsegment]
              exact .ask (fun span => aliasFrom info span.start last) (fun _ => rfl)
                fun span => asks_aliasFrom info span.start last

theorem asks_block (info : Metadata) (items : List Child) :
    Asks (Node.block info items).defective
      (fun within => (Node.block info items).layout within) (Node.block info items).visited := by
  simp only [Node.visited, Node.layout, blockSpan_eq, Node.defective]
  cases hclosing : info.hasClosing with
  | true =>
      simp only [if_true]
      rw [← Bool.or_false info.place?.isNone, ← Bool.not_true, ← hclosing]
      exact asks_enclosedSpan info Shape.block.kind
  | false =>
      cases items with
      | nil => exact .refuse .emptyBlock fun _ => rfl
      | cons first rest =>
          simp only [Bool.false_eq_true, if_false, List.isEmpty_cons, map_ends]
          exact asks_hull first.toValue (rest.map Child.toValue)

/-- Where a call that starts at `start` stops: after its closing token, or after its last argument.
Without either, `bare` is its span. -/
def callFrom (info : Metadata) (kind : String) (start : Position) (args : List Child)
    (bare : Except Fault Span) : Rule := fun within =>
  if info.hasClosing then info.closingSpan kind start
  else
    match args.getLast? with
    | none => bare
    | some last => within last.toValue >>= fun span => .ok ⟨start, span.stop⟩

theorem asks_callFrom (info : Metadata) (kind : String) (start : Position) (args : List Child)
    {bare : Except Fault Span} (hbare : Asks defective (fun _ => bare) []) :
    Asks (!info.hasClosing && args.isEmpty && defective) (callFrom info kind start args bare)
      (lastArgument? info args).toList := by
  unfold callFrom lastArgument?
  cases hclosing : info.hasClosing with
  | true =>
      have hasks := asks_closingSpan info kind start
      rw [hclosing] at hasks
      exact hasks
  | false =>
      rcases List.eq_nil_or_concat args with rfl | ⟨front, last, rfl⟩
      · exact hbare
      · have hlast : (front.concat last).getLast? = some last := by simp
        have hempty : (front.concat last).isEmpty = false := by simp
        rw [hlast, hempty]
        exact asks_last last.toValue fun span => ⟨start, span.stop⟩

theorem plainCallSpan_eq (within : Value → Except Fault Span) (info : Metadata)
    (args : List Child) : plainCallSpan within info args =
      info.position Shape.call.kind >>= fun start =>
        callFrom info Shape.call.kind start args (.ok ⟨start, start⟩) within := by
  unfold plainCallSpan callFrom
  cases args with
  | nil => rfl
  | cons first rest =>
      rw [lastItem_cons, List.getLast?_cons]
      rfl

/-- The span of a qualified call with neither a closing token nor arguments. -/
def bareRemoteCall (info : Metadata) (name : Option String) (start : Position) :
    Except Fault Span :=
  info.position Shape.remoteCall.kind >>= fun own => .ok ⟨start, own.advance
    ((name.map String.length).getD 0 + if info.noParens then 0 else parenthesesWidth)⟩

theorem remoteCallSpan_eq (within : Value → Except Fault Span) (info : Metadata) (receiver : Node)
    (name : Option String) (args : List Child) : remoteCallSpan within info receiver name args =
      within (.node receiver) >>= fun front =>
        callFrom info Shape.remoteCall.kind front.start args
          (bareRemoteCall info name front.start) within := by
  unfold remoteCallSpan callFrom
  cases args with
  | nil => rfl
  | cons first rest =>
      rw [lastItem_cons, List.getLast?_cons]
      rfl

theorem asks_call (info : Metadata) (name : String) (args : List Child) :
    Asks (Node.call info name args).defective
      (fun within => (Node.call info name args).layout within)
      (Node.call info name args).visited := by
  simp only [Node.visited, Node.layout, callSpan_eq, plainCallSpan_eq, Node.defective]
  cases callForm name args with
  | between first last => exact asks_between first.toValue last.toValue
  | unary operand =>
      rw [← Bool.or_false info.place?.isNone]
      refine asks_position fun p _ => ?_
      refine .ask (fun span _ => .ok ⟨p, if span.stop.line = p.line then span.stop
        else span.stop.advance name.length⟩) (fun within => ?_) fun _ => .answer _ fun _ => rfl
      congr 1
      funext span
      split_ifs <;> rfl
  | plain =>
      rw [← Bool.or_false info.place?.isNone]
      refine asks_position fun p _ => ?_
      have hasks := asks_callFrom info Shape.call.kind p args (.answer ⟨p, p⟩ fun _ => rfl)
      rw [Bool.and_false] at hasks
      exact hasks

theorem asks_remoteCall (info dotInfo : Metadata) (receiver : Node) (name : Option String)
    (args : List Child) :
    Asks (Node.remoteCall info dotInfo receiver name args).defective
      (fun within => (Node.remoteCall info dotInfo receiver name args).layout within)
      (Node.remoteCall info dotInfo receiver name args).visited := by
  refine .ask (fun front => callFrom info Shape.remoteCall.kind front.start args
    (bareRemoteCall info name front.start)) (fun within => ?_) fun front => ?_
  · exact remoteCallSpan_eq within info receiver name args
  · apply asks_callFrom
    rw [← Bool.or_false info.place?.isNone]
    exact asks_position fun p _ => .answer _ fun _ => rfl

theorem asks_sigil (info : Metadata) (letter : String) (bodyInfo : Metadata) (pieces : List Piece)
    (modifiers : String) :
    Asks (Node.sigil info letter bodyInfo pieces modifiers).defective
      (fun within => (Node.sigil info letter bodyInfo pieces modifiers).layout within) [] := by
  simp only [Node.layout, sigilSpan, Node.defective, Bool.or_assoc]
  rw [← Bool.or_false (pieces.any Piece.isUnclosed)]
  refine asks_position fun p hp => ?_
  simp only [sigilStop, Metadata.position_of_place? hp, bind_assoc]
  refine asks_need fun delimiter _ => ?_
  refine asks_interpolationStop fun bodyStop _ => ?_
  split_ifs <;> exact .answer _ fun _ => rfl

end Layout

/-- The rule of a node asks for the node's visited children and answers unless the node has a
defect. -/
theorem Node.layout_asks (n : Node) :
    Rule.Asks n.defective (fun within => n.layout within) n.visited := by
  cases n with
  | bare info => exact .refuse _ fun _ => rfl
  | dot info receiver name => exact .refuse _ fun _ => rfl
  | number info value =>
      rw [defective, ← Bool.or_false info.token.isNone]
      exact asks_position fun p _ => asks_need fun token _ => .answer _ fun _ => rfl
  | atom info value =>
      rw [defective, ← Bool.or_false info.place?.isNone]
      refine asks_position fun p _ => ?_
      cases info.delimiter <;> exact .answer _ fun _ => rfl
  | string info value =>
      rw [defective, ← Bool.or_false info.delimiter.isNone]
      refine asks_position fun p _ => asks_need fun delimiter _ => ?_
      split_ifs <;> exact .answer _ fun _ => rfl
  | «variable» info name =>
      rw [defective, ← Bool.or_false info.place?.isNone]
      exact asks_position fun p _ => .answer _ fun _ => rfl
  | «alias» info segments => exact asks_alias info segments
  | block info items => exact asks_block info items
  | pair info key value => exact asks_between (.node key) (.node value)
  | call info name args => exact asks_call info name args
  | remoteCall info dotInfo receiver name args =>
      exact asks_remoteCall info dotInfo receiver name args
  | access info subject key => exact asks_frontedSpan info _ subject
  | qualifiedTuple info receiver items => exact asks_frontedSpan info _ receiver
  | embedded info expr => exact asks_enclosedSpan info _
  | interpolation info pieces =>
      rw [defective, ← Bool.or_false (pieces.any Piece.isUnclosed)]
      exact asks_position fun p _ => asks_interpolationStop fun stop _ => .answer _ fun _ => rfl
  | interpolatedAtom info bodyInfo pieces =>
      rw [defective, ← Bool.or_false (pieces.any Piece.isUnclosed)]
      exact asks_position fun p _ => asks_interpolationStop fun stop _ => .answer _ fun _ => rfl
  | bitstring info items => exact asks_bitstringSpan info
  | sigil info letter bodyInfo pieces modifiers =>
      exact asks_sigil info letter bodyInfo pieces modifiers

/-- The rule of a value asks for the value's visited children and answers unless the value has a
defect. -/
theorem Value.layout_asks (v : Value) :
    Rule.Asks v.defective (fun within => v.layout within) v.visited := by
  cases v with
  | sequence items =>
      cases items with
      | nil => exact .refuse _ fun _ => rfl
      | cons first rest => exact asks_hull first rest
  | node n => exact n.layout_asks
  | _ => exact .refuse _ fun _ => rfl

end SourceSpan
