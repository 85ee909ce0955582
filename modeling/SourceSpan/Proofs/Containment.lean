import Mathlib.Logic.Relation
import SourceSpan.Proofs.Depth
import SourceSpan.Proofs.Literal

/-!
# Spans of children lie inside

The span of a node is put together from a few recorded positions and from the spans of its outermost
children; the children in between never enter it. It contains them all nevertheless if the tree is
laid out as a text would be: children follow each other, a node opens in front of its first child and
the token it closes with stands behind its last.

`LaidOut` says this of one value and speaks only of recorded positions and of the spans of children.
That a span starts before it stops, and that it contains the spans below it, follows for whole trees.
-/

namespace SourceSpan

open Layout

/-! ### The order of positions -/

namespace Position

theorem le_refl (p : Position) : p ≤ p :=
  le_iff.mpr (.inr ⟨rfl, Nat.le_refl _⟩)

theorem le_trans {p q r : Position} (hpq : p ≤ q) (hqr : q ≤ r) : p ≤ r := by
  rw [le_iff] at hpq hqr ⊢
  omega

theorem le_of_line_lt {p q : Position} (h : p.line < q.line) : p ≤ q :=
  le_iff.mpr (.inl h)

theorem le_advance (p : Position) (width : Nat) : p ≤ p.advance width :=
  le_iff.mpr (.inr ⟨rfl, Nat.le_add_right _ _⟩)

theorem le_advance_of_le {p q : Position} (h : p ≤ q) (width : Nat) : p ≤ q.advance width :=
  le_trans h (q.le_advance width)

instance : Trans (α := Position) (β := Position) (γ := Position) (· ≤ ·) (· ≤ ·) (· ≤ ·) where
  trans := le_trans

end Position

/-! ### All children -/

/-- The value that an embedded expression is measured as; text is not measured. -/
def Piece.children : Piece → List Value
  | .text _ => []
  | .embedded info expr => [.node (.embedded info expr)]

/-- The children of a node that can have spans, in source order. -/
def Node.children : Node → List Value
  | .alias _ segments => segments.flatMap Segment.visited
  | .block _ items => items.map Child.toValue
  | .pair _ key value => [.node key, .node value]
  | .call _ _ args => args.map Child.toValue
  | .dot _ receiver _ => [.node receiver]
  | .remoteCall _ _ receiver _ args => .node receiver :: args.map Child.toValue
  | .access _ subject key => [.node subject, .node key]
  | .qualifiedTuple _ receiver items => .node receiver :: items.map .node
  | .embedded _ expr => [.node expr]
  | .bitstring _ items => items.map .node
  | n => n.pieces.flatMap Piece.children

/-- Where the closing token stands; an `end` goes before a bracket. -/
def Metadata.closingToken? (info : Metadata) : Option Position :=
  info.endWord.or info.closing

/-- The recorded token that the rule of a node stops behind: its closing token, the name at the end
of an alias, or the name of a qualified call that has neither a closing token nor arguments. -/
def Node.lastToken? : Node → Option Position
  | .alias info segments => if segments.getLast?.any Segment.isName then info.last else none
  | .block info _ => info.closingToken?
  | .call info name args =>
    match callForm name args with
    | .plain => info.closingToken?
    | _ => none
  | .remoteCall info _ _ _ args =>
    if args.isEmpty then info.closingToken?.or info.place? else info.closingToken?
  | .access info .. => info.closingToken?
  | .qualifiedTuple info .. => info.closingToken?
  | .embedded info _ => info.closingToken?
  | .bitstring info _ => info.closingToken?
  | _ => none

/-- An operator stands between its first and its last argument. -/
theorem ends_of_between {name : String} {args : List Child} {first last : Child}
    (h : callForm name args = .between first last) :
    args.head? = some first ∧ args.getLast? = some last := by
  unfold callForm at h
  split at h
  case h_1 => split_ifs at h
  case h_2 =>
      split_ifs at h
      cases h
      exact ⟨rfl, rfl⟩
  case h_3 =>
      split_ifs at h
      cases h
      exact ⟨rfl, rfl⟩
  case h_4 => cases h

theorem eq_singleton_of_unary {name : String} {args : List Child} {operand : Child}
    (h : callForm name args = .unary operand) : args = [operand] := by
  unfold callForm at h
  split at h
  case h_1 =>
      split_ifs at h
      cases h
      rfl
  case h_2 => split_ifs at h
  case h_3 => split_ifs at h
  case h_4 => cases h

theorem getLast?_of_lastArgument? {c : Value} {info : Metadata} {args : List Child}
    (h : lastArgument? info args = some c) : (args.map Child.toValue).getLast? = some c := by
  unfold lastArgument? at h
  split_ifs at h
  rw [List.getLast?_map, h]

namespace Value

/-- The children of a value that can have spans, in source order. -/
def children : Value → List Value
  | .sequence items => items
  | .node n => n.children
  | _ => []

def lastToken? : Value → Option Position
  | .node n => n.lastToken?
  | _ => none

/-- The left walk goes to the first child. -/
theorem head?_children {v c : Value} (h : v.leftStep = some c) : v.children.head? = some c := by
  cases v with
  | sequence items => exact h
  | node n =>
      simp only [leftStep] at h
      simp only [children]
      cases n with
      | «alias» info segments =>
          unfold Node.leftStep at h
          split at h
          case h_1 n rest heq =>
              cases heq
              cases h
              rfl
          all_goals simp_all
      | block info items =>
          simp only [Node.leftStep] at h
          split_ifs at h
          rw [Node.children, List.head?_map, h]
      | call info name args =>
          simp only [Node.leftStep] at h
          split at h
          case h_1 first last hform =>
              cases h
              rw [Node.children, List.head?_map, (ends_of_between hform).1, Option.map_some]
          case h_2 => cases h
      | pair info key value => exact h
      | remoteCall info dotInfo receiver name args => exact h
      | access info subject key => exact h
      | qualifiedTuple info receiver items => exact h
      | _ => cases h
  | _ => cases h

/-- The right walk goes to the last child. -/
theorem getLast?_children {v c : Value} (h : v.rightStep = some c) :
    v.children.getLast? = some c := by
  cases v with
  | sequence items => exact h
  | node n =>
      simp only [rightStep] at h
      simp only [children]
      cases n with
      | «alias» info segments =>
          simp only [Node.rightStep] at h
          split at h
          case h_1 n hlast =>
              cases h
              obtain ⟨front, rfl⟩ := List.getLast?_eq_some_iff.mp hlast
              rw [Node.children, List.flatMap_append]
              exact List.getLast?_concat
          case h_2 => cases h
      | block info items =>
          simp only [Node.rightStep] at h
          split_ifs at h
          rw [Node.children, List.getLast?_map, h]
      | call info name args =>
          simp only [Node.rightStep] at h
          split at h
          case h_1 first last hform =>
              cases h
              rw [Node.children, List.getLast?_map, (ends_of_between hform).2, Option.map_some]
          case h_2 operand hform =>
              cases h
              rw [Node.children, eq_singleton_of_unary hform]
              rfl
          case h_3 => exact getLast?_of_lastArgument? h
      | pair info key value => exact h
      | remoteCall info dotInfo receiver name args =>
          rw [Node.children, List.getLast?_cons, getLast?_of_lastArgument? h]
          rfl
      | _ => cases h
  | _ => cases h

end Value

/-! ### One value -/

/-- A value is laid out as in a text, where `spans` are the spans of its children: they follow each
other, the value opens in front of the first of them, and the token that it stops behind stands
behind the last. In an interpolated literal only the closing braces count as ends of expressions,
and a closing delimiter that is taken to stand at the margin does stand on a line of its own. -/
structure LaidOut (machine : Machine) (maxDepth : Nat) (v : Value) (spans : List Span) : Prop where
  measured : v.children.map (·.span machine maxDepth) = spans.map .ok
  ordered : spans.IsChain fun a b => a.stop ≤ b.start
  opens : v.leftStep = none → ∀ p ∈ v.opening?,
    (∀ first ∈ spans.head?, p ≤ first.start) ∧ ∀ q ∈ v.lastToken?, p ≤ q
  closes : ∀ q ∈ v.lastToken?, ∀ last ∈ spans.getLast?, last.stop ≤ q
  braced : ∀ info expr, Piece.embedded info expr ∈ v.pieces → info.endWord = none
  broken : v.closesAtMargin = true → ¬RunsOn v.pieces

/-- Everything in a value, down to the last leaf, is laid out as in a text. -/
inductive WellLaid (machine : Machine) (maxDepth : Nat) : Value → Prop
  | intro {v : Value} {spans : List Span} (here : LaidOut machine maxDepth v spans)
      (below : ∀ c ∈ v.children, WellLaid machine maxDepth c) : WellLaid machine maxDepth v

/-- Spans that follow each other start behind the first and stop in front of the last. -/
theorem bounds_of_isChain {spans : List Span} (hchain : spans.IsChain fun a b => a.stop ≤ b.start)
    (hordered : ∀ span ∈ spans, span.start ≤ span.stop) {span : Span} (hspan : span ∈ spans) :
    (∀ first ∈ spans.head?, first.start ≤ span.start) ∧
      ∀ last ∈ spans.getLast?, span.stop ≤ last.stop := by
  induction spans generalizing span with
  | nil => cases hspan
  | cons head rest ih =>
      cases rest with
      | nil =>
          obtain rfl := List.mem_singleton.mp hspan
          refine ⟨?_, ?_⟩
          · rintro first ⟨⟩
            exact span.start.le_refl
          · rintro last ⟨⟩
            exact span.stop.le_refl
      | cons next rest =>
          obtain ⟨hnext, htail⟩ := List.isChain_cons_cons.mp hchain
          have hhead : head.start ≤ head.stop := hordered head List.mem_cons_self
          have hrest : ∀ s ∈ next :: rest, s.start ≤ s.stop :=
            fun s hs => hordered s (List.mem_cons_of_mem _ hs)
          rw [List.getLast?_cons_cons]
          rcases List.mem_cons.mp hspan with rfl | hspan
          · refine ⟨?_, fun last hlast => ?_⟩
            · rintro first ⟨⟩
              exact span.start.le_refl
            · calc span.stop ≤ next.start := hnext
                _ ≤ next.stop := hrest next List.mem_cons_self
                _ ≤ last.stop := (ih htail hrest List.mem_cons_self).2 last hlast
          · refine ⟨?_, (ih htail hrest hspan).2⟩
            rintro first ⟨⟩
            calc head.start ≤ head.stop := hhead
              _ ≤ next.start := hnext
              _ ≤ span.start := (ih htail hrest hspan).1 next rfl

/-! ### Stops of their own -/

theorem Metadata.closingToken?_of_closingStop? {info : Metadata} {stop : Position}
    (h : info.closingStop? = some stop) :
    ∃ q width, info.closingToken? = some q ∧ stop = q.advance width := by
  unfold closingStop? at h
  unfold closingToken?
  cases hend : info.endWord with
  | some q =>
      rw [hend] at h
      cases h
      exact ⟨q, endWordWidth, rfl, rfl⟩
  | none =>
      rw [hend] at h
      obtain ⟨q, hclosing, rfl⟩ := Option.map_eq_some_iff.mp h
      exact ⟨q, bracketWidth, by rw [Option.none_or, hclosing], rfl⟩

theorem Metadata.closingToken?_eq_none {info : Metadata} (h : info.closingStop? = none) :
    info.closingToken? = none := by
  unfold closingStop? at h
  unfold closingToken?
  cases hend : info.endWord with
  | some q =>
      rw [hend] at h
      cases h
  | none =>
      rw [hend] at h
      rw [Option.none_or]
      exact Option.map_eq_none_iff.mp h

/-- Without a closing token, a call whose last argument is not looked at has no arguments. -/
theorem eq_nil_of_lastArgument? {info : Metadata} {args : List Child}
    (h : lastArgument? info args = none) (hclosing : info.closingStop? = none) : args = [] := by
  have hfalse : info.hasClosing = false := by
    rw [← Metadata.isSome_closingStop?, hclosing]
    rfl
  rw [lastArgument?, hfalse] at h
  exact List.getLast?_eq_none_iff.mp (Option.map_eq_none_iff.mp h)

namespace Layout

theorem le_textStop (start : Position) (text : String) (opening closing : Nat) :
    start ≤ textStop start text opening closing := by
  unfold textStop
  dsimp only
  split_ifs with hbreaks
  · exact start.le_advance _
  · refine Position.le_of_line_lt ?_
    rw [Position.line_below]
    omega

theorem le_afterText (start here : Position) (text : String) : here ≤ afterText start here text := by
  unfold afterText
  dsimp only
  split_ifs with hbreaks
  · exact here.le_advance _
  · refine Position.le_of_line_lt ?_
    rw [Position.line_below]
    omega

theorem line_lt_afterText (start here : Position) {text : String}
    (h : Text.breakCount text.toList ≠ 0) : here.line < (afterText start here text).line := by
  unfold afterText
  rw [if_neg h, Position.line_below]
  omega

/-- A walk over texts goes forward, and down if one of them has a line ending. -/
theorem walk_of_texts {start here stop : Position} {pieces : List Piece}
    (h : walk start here pieces = .ok stop) (hnone : hasEmbedded pieces = false) :
    here ≤ stop ∧ (¬RunsOn pieces → here.line < stop.line) := by
  induction pieces generalizing here with
  | nil =>
      cases h
      refine ⟨stop.le_refl, fun hbroken => ?_⟩
      exact absurd (fun text htext => nomatch htext) hbroken
  | cons piece rest ih =>
      cases piece with
      | embedded info expr => cases hnone
      | text text =>
          have hrest : hasEmbedded rest = false := hnone
          obtain ⟨hle, hline⟩ := ih h hrest
          have hstep := le_afterText start here text
          refine ⟨Position.le_trans hstep hle, fun hbroken => ?_⟩
          by_cases hbreaks : Text.breakCount text.toList = 0
          · have hbelow : ¬RunsOn rest := by
              intro hruns
              refine hbroken fun t ht => ?_
              rw [trailing, if_neg (by rw [hrest]; exact Bool.false_ne_true)] at ht
              rcases List.mem_cons.mp ht with rfl | ht
              · exact hbreaks
              · exact hruns t ht
            have hlt := hline hbelow
            rw [Position.le_iff] at hstep
            omega
          · have hlt := line_lt_afterText start here hbreaks
            rw [Position.le_iff] at hle
            omega

/-- The last embedded expression of some pieces, if there is one. -/
theorem getLast?_flatMap_children (pieces : List Piece) :
    (hasEmbedded pieces = false ∧ pieces.flatMap Piece.children = []) ∨
      ∃ info expr, .embedded info expr ∈ pieces ∧
        (pieces.flatMap Piece.children).getLast? = some (.node (.embedded info expr)) := by
  induction pieces with
  | nil => exact .inl ⟨rfl, rfl⟩
  | cons piece rest ih =>
      rcases ih with ⟨hnone, hnil⟩ | ⟨info, expr, hmem, hlast⟩
      · cases piece with
        | text text => exact .inl ⟨hnone, hnil⟩
        | embedded info expr =>
            refine .inr ⟨info, expr, List.mem_cons_self, ?_⟩
            rw [List.flatMap_cons, hnil]
            rfl
      · refine .inr ⟨info, expr, List.mem_cons_of_mem _ hmem, ?_⟩
        rw [List.flatMap_cons, List.getLast?_append, hlast]
        rfl

/-- A walk stops behind the brace of the last embedded expression, and further down than it if a line
ends in between. -/
theorem walk_of_last {start here stop : Position} {pieces : List Piece} {info : Metadata}
    {expr : Node} (h : walk start here pieces = .ok stop)
    (hlast : (pieces.flatMap Piece.children).getLast? = some (.node (.embedded info expr))) :
    ∃ q, info.closing = some q ∧ q.advance 1 ≤ stop ∧ (¬RunsOn pieces → q.line < stop.line) := by
  induction pieces generalizing here with
  | nil => cases hlast
  | cons piece rest ih =>
      cases piece with
      | text text =>
          have hmore : hasEmbedded rest = true := by
            rcases getLast?_flatMap_children rest with ⟨-, hnil⟩ | ⟨_, _, hmem, -⟩
            · rw [List.flatMap_cons, hnil] at hlast
              cases hlast
            · exact List.any_eq_true.mpr ⟨_, hmem, rfl⟩
          rw [RunsOn, trailing, if_pos hmore]
          exact ih h hlast
      | embedded info' expr' =>
          rw [walk, bind_eq_ok_iff] at h
          obtain ⟨q, hclosing, h⟩ := h
          rw [need_eq_ok_iff] at hclosing
          rcases getLast?_flatMap_children rest with ⟨hnone, hnil⟩ | ⟨_, _, -, hlast'⟩
          · rw [List.flatMap_cons, hnil] at hlast
            cases hlast
            obtain ⟨hle, hline⟩ := walk_of_texts h hnone
            exact ⟨q, hclosing, hle, hline⟩
          · rw [List.flatMap_cons, List.getLast?_append, hlast', Option.some_or] at hlast
            exact ih h (hlast'.trans hlast)

/-- The stop of an interpolated literal that opens at `start` lies behind the opening and behind the
brace of the last embedded expression. A closing delimiter at the margin has to stand on a line of
its own for that. -/
def StopsBehind (pieces : List Piece) (atMargin : Bool) (start stop : Position) : Prop :=
  (pieces.flatMap Piece.children = [] ∧ start ≤ stop) ∨
    ∃ info expr q, .embedded info expr ∈ pieces ∧ info.closing = some q ∧
      (pieces.flatMap Piece.children).getLast? = some (.node (.embedded info expr)) ∧
      ((atMargin = true → ¬RunsOn pieces) → q.advance 1 ≤ stop)

theorem StopsBehind.advance {pieces : List Piece} {atMargin : Bool} {start stop : Position}
    (h : StopsBehind pieces atMargin start stop) (width : Nat) :
    StopsBehind pieces atMargin start (stop.advance width) := by
  rcases h with ⟨hnil, hle⟩ | ⟨info, expr, q, hmem, hclosing, hlast, hle⟩
  · exact .inl ⟨hnil, Position.le_advance_of_le hle width⟩
  · refine .inr ⟨info, expr, q, hmem, hclosing, hlast, fun hbroken => ?_⟩
    exact Position.le_advance_of_le (hle hbroken) width

theorem stopsBehind_interpolationStop {pieces : List Piece} {delimiter : String}
    {start stop : Position} (h : interpolationStop pieces delimiter start = .ok stop) :
    StopsBehind pieces (isTriple delimiter && hasEmbedded pieces) start stop := by
  rw [interpolationStop, bind_eq_ok_iff] at h
  obtain ⟨here, hwalk, h⟩ := h
  rcases getLast?_flatMap_children pieces with ⟨hnone, hnil⟩ | ⟨info, expr, hmem, hlast⟩
  · rw [hnone] at h
    cases h
    exact .inl ⟨hnil, Position.le_advance_of_le (walk_of_texts hwalk hnone).1 2⟩
  · have hsome : hasEmbedded pieces = true := List.any_eq_true.mpr ⟨_, hmem, rfl⟩
    obtain ⟨q, hclosing, hle, hline⟩ := walk_of_last hwalk hlast
    refine .inr ⟨info, expr, q, hmem, hclosing, hlast, fun hbroken => ?_⟩
    rw [hsome, if_pos rfl] at h
    rw [hsome, Bool.and_true] at hbroken
    split_ifs at h with htriple
    · cases h
      exact Position.le_of_line_lt (hline (hbroken htriple))
    · cases h
      exact Position.le_advance_of_le hle 1

theorem stopsBehind_sigilStop {info : Metadata} {pieces : List Piece} {modifiers : String}
    {stop : Position} (h : sigilStop info pieces modifiers = .ok stop) :
    ∃ start, info.place? = some start ∧
      StopsBehind pieces (info.delimiter.any isTriple && hasEmbedded pieces) start stop := by
  simp only [sigilStop, bind_eq_ok_iff, Metadata.position_eq_ok_iff, need_eq_ok_iff] at h
  obtain ⟨start, hstart, delimiter, hdelimiter, bodyStop, hbody, h⟩ := h
  have hbehind := (stopsBehind_interpolationStop hbody).advance modifiers.length
  refine ⟨start, hstart, ?_⟩
  rw [hdelimiter, Option.any_some]
  split_ifs at h with hheredoc hplain
  · cases h
    rw [Bool.and_eq_true, Bool.not_eq_true'] at hheredoc
    rcases hbehind with ⟨hnil, hle⟩ | ⟨_, _, _, hmem, -⟩
    · refine .inl ⟨hnil, Position.le_of_line_lt ?_⟩
      rw [Position.le_iff] at hle
      rw [Position.line_below]
      omega
    · have hsome : hasEmbedded pieces = true := List.any_eq_true.mpr ⟨_, hmem, rfl⟩
      rw [hheredoc.2] at hsome
      cases hsome
  · cases h
    exact hbehind
  · cases h
    exact hbehind.advance sigilOpeningWidth

end Layout

namespace Node

theorem toOption_eq_some {x : Except Fault Position} {p : Position} (h : x.toOption = some p) :
    x = .ok p := by
  cases x with
  | error fault => cases h
  | ok q =>
      cases h
      rfl

/-- A node without a child at its end stops behind its last token, or it has no children and stops
behind its opening, or it stops as an interpolated literal does. -/
theorem ownStop?_cases {n : Node} {stop : Position} (hright : n.rightStep = none)
    (h : n.ownStop? = some stop) :
    (∃ q width, n.lastToken? = some q ∧ stop = q.advance width) ∨
      (n.children = [] ∧ ∀ p ∈ n.opening?, p ≤ stop) ∨
      ∃ start ∈ n.opening?, n.children = n.pieces.flatMap Piece.children ∧
        StopsBehind n.pieces n.closesAtMargin start stop := by
  cases n with
  | bare info => cases h
  | dot info receiver name => cases h
  | pair info key value => cases h
  | number info value =>
      obtain ⟨start, hstart, h⟩ := Option.bind_eq_some_iff.mp h
      obtain ⟨token, -, h⟩ := Option.bind_eq_some_iff.mp h
      cases h
      refine .inr (.inl ⟨rfl, fun p hp => ?_⟩)
      cases hstart.symm.trans hp
      exact start.le_advance _
  | atom info value =>
      obtain ⟨start, hstart, h⟩ := Option.bind_eq_some_iff.mp h
      refine .inr (.inl ⟨rfl, fun p hp => ?_⟩)
      cases hstart.symm.trans hp
      split at h
      · cases h
        exact le_textStop start value 1 0
      · cases h
        exact le_textStop start value 2 _
  | string info value =>
      obtain ⟨start, hstart, h⟩ := Option.bind_eq_some_iff.mp h
      obtain ⟨delimiter, -, h⟩ := Option.bind_eq_some_iff.mp h
      refine .inr (.inl ⟨rfl, fun p hp => ?_⟩)
      cases hstart.symm.trans hp
      split_ifs at h
      · cases h
        refine Position.le_of_line_lt ?_
        rw [Position.line_below, Text.length_lines]
        omega
      · cases h
        exact le_textStop start value 1 _
  | «variable» info name =>
      obtain ⟨start, hstart, rfl⟩ := Option.map_eq_some_iff.mp h
      refine .inr (.inl ⟨rfl, fun p hp => ?_⟩)
      cases hstart.symm.trans hp
      exact start.le_advance _
  | «alias» info segments =>
      simp only [ownStop?] at h
      split at h
      case h_1 text hlast =>
          obtain ⟨q, hq, rfl⟩ := Option.map_eq_some_iff.mp h
          refine .inl ⟨q, text.length, ?_, rfl⟩
          rw [lastToken?, hlast]
          exact hq
      case h_2 => cases h
  | block info items => exact .inl (Metadata.closingToken?_of_closingStop? h)
  | call info name args =>
      simp only [rightStep] at hright
      simp only [ownStop?] at h
      split at hright
      case h_1 => cases hright
      case h_2 => cases hright
      case h_3 hform =>
          rcases Option.or_eq_some_iff.mp h with hclosing | ⟨hnone, hplace⟩
          · simp only [lastToken?, hform]
            exact .inl (Metadata.closingToken?_of_closingStop? hclosing)
          · have hargs := eq_nil_of_lastArgument? hright hnone
            refine .inr (.inl ⟨by rw [children, hargs, List.map_nil], fun p hp => ?_⟩)
            cases hplace.symm.trans hp
            exact stop.le_refl
  | remoteCall info dotInfo receiver name args =>
      simp only [ownStop?] at h
      rcases Option.or_eq_some_iff.mp h with hclosing | ⟨hnone, hplace⟩
      · obtain ⟨q, width, hq, rfl⟩ := Metadata.closingToken?_of_closingStop? hclosing
        refine .inl ⟨q, width, ?_, rfl⟩
        rw [lastToken?, hq, Option.some_or, ite_self]
      · obtain ⟨own, hown, rfl⟩ := Option.map_eq_some_iff.mp hplace
        have hargs := eq_nil_of_lastArgument? hright hnone
        refine .inl ⟨own, _, ?_, rfl⟩
        rw [lastToken?, hargs, Metadata.closingToken?_eq_none hnone]
        exact hown
  | access info subject key => exact .inl (Metadata.closingToken?_of_closingStop? h)
  | qualifiedTuple info receiver items => exact .inl (Metadata.closingToken?_of_closingStop? h)
  | embedded info expr => exact .inl (Metadata.closingToken?_of_closingStop? h)
  | bitstring info items =>
      obtain ⟨inner, hinner, rfl⟩ := Option.map_eq_some_iff.mp h
      obtain ⟨q, width, hq, rfl⟩ := Metadata.closingToken?_of_closingStop? hinner
      exact .inl ⟨q, width + bitstringSurplus, hq, Position.advance_advance q _ _⟩
  | interpolation info pieces =>
      obtain ⟨start, hstart, h⟩ := Option.bind_eq_some_iff.mp h
      have hbehind := stopsBehind_interpolationStop (toOption_eq_some h)
      exact .inr (.inr ⟨start, hstart, rfl, hbehind⟩)
  | interpolatedAtom info bodyInfo pieces =>
      obtain ⟨start, hstart, h⟩ := Option.bind_eq_some_iff.mp h
      have hbehind := stopsBehind_interpolationStop (toOption_eq_some h)
      exact .inr (.inr ⟨start, hstart, rfl, hbehind⟩)
  | sigil info letter bodyInfo pieces modifiers =>
      obtain ⟨start, hstart, hbehind⟩ := stopsBehind_sigilStop (toOption_eq_some h)
      exact .inr (.inr ⟨start, hstart, rfl, hbehind⟩)

end Node

namespace Value

/-- A span is put together from the spans of the children themselves: a smaller budget gives them the
same spans. -/
theorem span_ends {machine : Machine} {maxDepth : Nat} {v : Value} {span : Span}
    (h : v.span machine maxDepth = .ok span) :
    v.StartsBy (·.span machine maxDepth) span.start ∧
      v.StopsBy (·.span machine maxDepth) span.stop := by
  have hchild : ∀ {c : Value} {inner : Span},
      spanAt (machine.depthFault maxDepth v) (machine.reach maxDepth) c = .ok inner →
        c.span machine maxDepth = .ok inner := by
    intro c inner hinner
    rw [span_eq_ok_iff, ← hinner]
    refine spanAt_of_le (isTooDeep_depthFault machine maxDepth v) (Nat.le_succ _)
      fun fault hfault => ?_
    rw [hinner] at hfault
    cases hfault
  obtain ⟨hstart, hstop⟩ := layout_ends (span_eq_ok_iff.mp h)
  refine ⟨?_, ?_⟩
  · unfold StartsBy at hstart ⊢
    split at hstart
    case h_1 c _ =>
        obtain ⟨inner, hinner, hstart⟩ := hstart
        exact ⟨inner, hchild hinner, hstart⟩
    case h_2 => exact hstart
  · unfold StopsBy at hstop ⊢
    split at hstop
    case h_1 c _ =>
        obtain ⟨inner, hinner, hstop⟩ := hstop
        exact ⟨inner, hchild hinner, hstop⟩
    case h_2 => exact hstop

end Value

namespace LaidOut

variable {machine : Machine} {maxDepth : Nat} {v : Value} {spans : List Span} {span : Span}

theorem head?_spans (h : LaidOut machine maxDepth v spans) {c : Value}
    (hc : v.children.head? = some c) :
    ∃ first, spans.head? = some first ∧ c.span machine maxDepth = .ok first := by
  have hhead := congrArg List.head? h.measured
  rw [List.head?_map, List.head?_map, hc] at hhead
  obtain ⟨first, hfirst, hspan⟩ := Option.map_eq_some_iff.mp hhead.symm
  exact ⟨first, hfirst, hspan.symm⟩

theorem getLast?_spans (h : LaidOut machine maxDepth v spans) {c : Value}
    (hc : v.children.getLast? = some c) :
    ∃ last, spans.getLast? = some last ∧ c.span machine maxDepth = .ok last := by
  have hlast := congrArg List.getLast? h.measured
  rw [List.getLast?_map, List.getLast?_map, hc] at hlast
  obtain ⟨last, hlast, hspan⟩ := Option.map_eq_some_iff.mp hlast.symm
  exact ⟨last, hlast, hspan.symm⟩

theorem mem_spans (h : LaidOut machine maxDepth v spans) {c : Value} (hc : c ∈ v.children) :
    ∃ inner ∈ spans, c.span machine maxDepth = .ok inner := by
  have hmem : c.span machine maxDepth ∈ v.children.map (·.span machine maxDepth) :=
    List.mem_map_of_mem hc
  rw [h.measured] at hmem
  obtain ⟨inner, hinner, hspan⟩ := List.mem_map.mp hmem
  exact ⟨inner, hinner, hspan.symm⟩

theorem exists_child (h : LaidOut machine maxDepth v spans) {inner : Span}
    (hinner : inner ∈ spans) :
    ∃ c ∈ v.children, c.span machine maxDepth = .ok inner := by
  have hmem : .ok inner ∈ spans.map (Except.ok (ε := Fault)) := List.mem_map_of_mem hinner
  rw [← h.measured] at hmem
  exact List.mem_map.mp hmem

theorem spans_eq_nil (h : LaidOut machine maxDepth v spans) (hc : v.children = []) :
    spans = [] := by
  have hmeasured := h.measured
  rw [hc, List.map_nil] at hmeasured
  exact List.map_eq_nil_iff.mp hmeasured.symm

/-- A laid out value starts no later than its first child. -/
theorem start_le (h : LaidOut machine maxDepth v spans)
    (hspan : v.span machine maxDepth = .ok span) :
    ∀ first ∈ spans.head?, span.start ≤ first.start := by
  intro first hfirst
  have hstart := (Value.span_ends hspan).1
  unfold Value.StartsBy at hstart
  cases hstep : v.leftStep with
  | none =>
      rw [hstep] at hstart
      exact (h.opens hstep span.start hstart).1 first hfirst
  | some c =>
      rw [hstep] at hstart
      obtain ⟨front, hfront, hstart⟩ := hstart
      obtain ⟨first', hfirst', hc⟩ := h.head?_spans (Value.head?_children hstep)
      cases hfirst.symm.trans hfirst'
      cases hfront.symm.trans hc
      rw [hstart]
      exact first.start.le_refl

/-- An embedded expression stops behind its brace. -/
theorem stop_of_embedded {info : Metadata} {expr : Node} {q : Position} {inner : Span}
    (hend : info.endWord = none) (hclosing : info.closing = some q)
    (hinner : (Value.node (.embedded info expr)).span machine maxDepth = .ok inner) :
    inner.stop = q.advance 1 := by
  have hstop : info.closingStop? = some inner.stop := (Value.span_ends hinner).2
  rw [Metadata.closingStop?, hend, hclosing] at hstop
  exact (Option.some.inj hstop).symm

/-- A laid out value stops no earlier than its last child. -/
theorem le_stop (h : LaidOut machine maxDepth v spans)
    (hspan : v.span machine maxDepth = .ok span) :
    ∀ last ∈ spans.getLast?, last.stop ≤ span.stop := by
  intro last hlast
  have hstop := (Value.span_ends hspan).2
  unfold Value.StopsBy at hstop
  cases hstep : v.rightStep with
  | some c =>
      rw [hstep] at hstop
      obtain ⟨back, hback, hstop⟩ := hstop
      obtain ⟨last', hlast', hc⟩ := h.getLast?_spans (Value.getLast?_children hstep)
      cases hlast.symm.trans hlast'
      cases hback.symm.trans hc
      rw [hstop]
      exact last.stop.le_advance _
  | none =>
      rw [hstep] at hstop
      cases v with
      | node n =>
          rcases Node.ownStop?_cases hstep hstop with
            ⟨q, width, hq, hstop⟩ | ⟨hnil, -⟩ | ⟨start, -, hchildren, hbehind⟩
          · rw [hstop]
            exact Position.le_advance_of_le (h.closes q hq last hlast) width
          · rw [h.spans_eq_nil hnil] at hlast
            cases hlast
          · rcases hbehind with ⟨hnil, -⟩ | ⟨info, expr, q, hmem, hclosing, hgetLast, hle⟩
            · rw [h.spans_eq_nil (hchildren.trans hnil)] at hlast
              cases hlast
            · obtain ⟨last', hlast', hinner⟩ := h.getLast?_spans (hchildren ▸ hgetLast)
              cases hlast.symm.trans hlast'
              rw [stop_of_embedded (h.braced info expr hmem) hclosing hinner]
              exact hle h.broken
      | _ => cases hstop

/-- A laid out value starts no later than it stops, if its children do. -/
theorem start_le_stop (h : LaidOut machine maxDepth v spans)
    (hspan : v.span machine maxDepth = .ok span)
    (hordered : ∀ inner ∈ spans, inner.start ≤ inner.stop) : span.start ≤ span.stop := by
  cases spans with
  | cons first rest =>
      obtain ⟨last, hlast⟩ : ∃ last, (first :: rest).getLast? = some last :=
        ⟨_, List.getLast?_cons⟩
      have hbounds := bounds_of_isChain h.ordered hordered List.mem_cons_self
      calc span.start ≤ first.start := h.start_le hspan first rfl
        _ ≤ first.stop := hordered first List.mem_cons_self
        _ ≤ last.stop := hbounds.2 last hlast
        _ ≤ span.stop := h.le_stop hspan last hlast
  | nil =>
      have hnil : v.children = [] := List.map_eq_nil_iff.mp (h.measured.trans List.map_nil)
      have hleft : v.leftStep = none := by
        refine Option.eq_none_iff_forall_ne_some.mpr fun c hc => ?_
        have hhead := Value.head?_children hc
        rw [hnil] at hhead
        cases hhead
      have hright : v.rightStep = none := by
        refine Option.eq_none_iff_forall_ne_some.mpr fun c hc => ?_
        have hlast := Value.getLast?_children hc
        rw [hnil] at hlast
        cases hlast
      obtain ⟨hstart, hstop⟩ := Value.span_ends hspan
      simp only [Value.StartsBy, hleft] at hstart
      simp only [Value.StopsBy, hright] at hstop
      cases v with
      | node n =>
          rcases Node.ownStop?_cases hright hstop with
            ⟨q, width, hq, hstop⟩ | ⟨-, hle⟩ | ⟨start, hopening, hchildren, hbehind⟩
          · rw [hstop]
            exact Position.le_advance_of_le ((h.opens hleft span.start hstart).2 q hq) width
          · exact hle span.start hstart
          · cases hstart.symm.trans hopening
            rcases hbehind with ⟨-, hle⟩ | ⟨_, _, _, -, -, hlast, -⟩
            · exact hle
            · rw [hchildren.symm.trans hnil] at hlast
              cases hlast
      | _ => cases hstop

/-- A laid out value contains its children, if they start no later than they stop. -/
theorem contains (h : LaidOut machine maxDepth v spans) (hspan : v.span machine maxDepth = .ok span)
    (hordered : ∀ inner ∈ spans, inner.start ≤ inner.stop) :
    ∀ inner ∈ spans, span.Contains inner := by
  intro inner hinner
  obtain ⟨hfirst, hlast⟩ := bounds_of_isChain h.ordered hordered hinner
  have hne : spans ≠ [] := List.ne_nil_of_mem hinner
  refine ⟨?_, ?_⟩
  · have hhead := List.head?_eq_some_head hne
    exact Position.le_trans (h.start_le hspan _ hhead) (hfirst _ hhead)
  · have hgetLast := List.getLast?_eq_some_getLast hne
    exact Position.le_trans (hlast _ hgetLast) (h.le_stop hspan _ hgetLast)

end LaidOut

/-! ### Trees -/

/-- One value is part of another, or the same: it is reached by going from children to children. -/
abbrev PartOf (w v : Value) : Prop :=
  Relation.ReflTransGen (fun v c => c ∈ v.children) v w

theorem Span.Contains.trans {a b c : Span} (hab : a.Contains b) (hbc : b.Contains c) :
    a.Contains c :=
  ⟨Position.le_trans hab.1 hbc.1, Position.le_trans hbc.2 hab.2⟩

namespace WellLaid

variable {machine : Machine} {maxDepth : Nat} {v w : Value} {span : Span}

theorem children (h : WellLaid machine maxDepth v) {c : Value} (hc : c ∈ v.children) :
    WellLaid machine maxDepth c := by
  obtain ⟨-, hbelow⟩ := h
  exact hbelow c hc

theorem partOf (h : WellLaid machine maxDepth v) (hw : PartOf w v) :
    WellLaid machine maxDepth w := by
  induction hw with
  | refl => exact h
  | tail _ hc ih => exact ih.children hc

theorem start_le_stop (h : WellLaid machine maxDepth v)
    (hspan : v.span machine maxDepth = .ok span) :
    span.start ≤ span.stop := by
  induction h generalizing span with
  | intro here below ih =>
      refine here.start_le_stop hspan fun inner hinner => ?_
      obtain ⟨c, hc, hinner⟩ := here.exists_child hinner
      exact ih c hc hinner

/-- A child has a span, and it is contained in that of the value. -/
theorem contains_child (h : WellLaid machine maxDepth v)
    (hspan : v.span machine maxDepth = .ok span) {c : Value}
    (hc : c ∈ v.children) : ∃ inner, c.span machine maxDepth = .ok inner ∧ span.Contains inner := by
  obtain ⟨here, below⟩ := h
  obtain ⟨inner, hmem, hinner⟩ := here.mem_spans hc
  refine ⟨inner, hinner, here.contains hspan (fun inner' hinner' => ?_) inner hmem⟩
  obtain ⟨c', hc', hspan'⟩ := here.exists_child hinner'
  exact (below c' hc').start_le_stop hspan'

theorem contains_part (h : WellLaid machine maxDepth v) (hspan : v.span machine maxDepth = .ok span)
    (hw : PartOf w v) : ∃ inner, w.span machine maxDepth = .ok inner ∧ span.Contains inner := by
  induction hw with
  | refl => exact ⟨span, hspan, span.start.le_refl, span.stop.le_refl⟩
  | tail hw hc ih =>
      obtain ⟨outer, houter, hcontains⟩ := ih
      obtain ⟨inner, hinner, hchild⟩ := (h.partOf hw).contains_child houter hc
      exact ⟨inner, hinner, hcontains.trans hchild⟩

/-- In a well laid out tree with a span, every part has a span, which starts no later than it stops
and contains the span of each of its own parts. -/
theorem span_contains_parts (h : WellLaid machine maxDepth v)
    (hspan : v.span machine maxDepth = .ok span) (hw : PartOf w v) :
    ∃ outer, w.span machine maxDepth = .ok outer ∧ outer.start ≤ outer.stop ∧
      ∀ part, PartOf part w →
        ∃ inner, part.span machine maxDepth = .ok inner ∧ outer.Contains inner := by
  obtain ⟨outer, houter, -⟩ := h.contains_part hspan hw
  have hlaid := h.partOf hw
  refine ⟨outer, houter, hlaid.start_le_stop houter, fun part hpart => ?_⟩
  exact hlaid.contains_part houter hpart

/-- The same of the spans under options that do not ask for comments. -/
theorem spanOf_contains_parts {options : Options} (hplain : options.includeComments = false)
    (h : WellLaid machine options.maxDepth v) (hspan : options.spanOf v machine = .ok span)
    (hw : PartOf w v) :
    ∃ outer, options.spanOf w machine = .ok outer ∧ outer.start ≤ outer.stop ∧
      ∀ part, PartOf part w →
        ∃ inner, options.spanOf part machine = .ok inner ∧ outer.Contains inner := by
  simp only [Options.spanOf_plain hplain] at hspan ⊢
  exact h.span_contains_parts hspan hw

/-- An operator in front of brackets that close on the next line. -/
def negation : Node :=
  .call { line := some 1, column := some 3 } "-"
    [.node (.block { line := some 1, column := some 4, closing := some ⟨2, 4, by decide, by decide⟩ }
      [.node (.variable { line := some 2, column := some 3 } "x")])]

/-- A string with an embedded expression. -/
def message : Node :=
  .interpolation { line := some 2, column := some 7, delimiter := some "\"" }
    [.text "a", .embedded
      { line := some 2, column := some 9, closing := some ⟨2, 12, by decide, by decide⟩ }
      (.variable { line := some 2, column := some 11 } "b")]

/-- A call over two lines, with both as arguments. -/
def callOverLines : Value :=
  .node (.call { line := some 1, column := some 1, closing := some ⟨2, 14, by decide, by decide⟩ }
    "f" [.node negation, .node message])

theorem of_variable (info : Metadata) (name : String) :
    WellLaid machine maxDepth (.node (.variable info name)) := by
  refine @intro _ _ _ [] ⟨rfl, .nil, ?_, ?_, ?_, ?_⟩ ?_
  · intro _ p _
    exact ⟨fun first hfirst => (by cases hfirst), fun q hq => by cases hq⟩
  · intro q hq
    cases hq
  · intro info expr hpiece
    cases hpiece
  · intro hmargin
    cases hmargin
  · intro c hc
    cases hc

/-- A closed value around a single child. -/
theorem of_closed {c : Value} {p q : Position} (hchildren : v.children = [c])
    (hspan : c.span machine maxDepth = .ok span) (hc : WellLaid machine maxDepth c)
    (hopening : v.opening? = some p) (htoken : v.lastToken? = some q) (hpieces : v.pieces = [])
    (hmargin : v.closesAtMargin = false) (hfirst : p ≤ span.start) (hlast : span.stop ≤ q)
    (hpq : p ≤ q) :
    WellLaid machine maxDepth v := by
  refine @intro _ _ _ [span] ⟨?_, .singleton _, ?_, ?_, ?_, ?_⟩ ?_
  · rw [hchildren, List.map_singleton, hspan]
    rfl
  · intro _ p' hp'
    cases hopening.symm.trans hp'
    refine ⟨?_, ?_⟩
    · rintro first ⟨⟩
      exact hfirst
    · intro q' hq'
      cases htoken.symm.trans hq'
      exact hpq
  · intro q' hq'
    cases htoken.symm.trans hq'
    rintro last ⟨⟩
    exact hlast
  · intro info expr hpiece
    rw [hpieces] at hpiece
    cases hpiece
  · intro hmargin'
    rw [hmargin] at hmargin'
    cases hmargin'
  · intro c' hc'
    rw [hchildren] at hc'
    obtain rfl := List.mem_singleton.mp hc'
    exact hc

theorem wellLaid_negation : WellLaid .standard Options.default.maxDepth (.node negation) := by
  refine @intro _ _ _ [⟨⟨1, 4, by decide, by decide⟩, ⟨2, 5, by decide, by decide⟩⟩]
    ⟨rfl, .singleton _, ?_, ?_, ?_, ?_⟩ ?_
  · rintro - p ⟨⟩
    refine ⟨?_, fun q hq => by cases hq⟩
    rintro first ⟨⟩
    decide
  · intro q hq
    cases hq
  · intro info expr hpiece
    cases hpiece
  · intro hmargin
    cases hmargin
  · intro c hc
    obtain rfl := List.mem_singleton.mp hc
    exact of_closed rfl rfl (of_variable _ _) rfl rfl rfl rfl (by decide) (by decide) (by decide)

theorem wellLaid_message : WellLaid .standard Options.default.maxDepth (.node message) := by
  refine @intro _ _ _ [⟨⟨2, 9, by decide, by decide⟩, ⟨2, 13, by decide, by decide⟩⟩]
    ⟨rfl, .singleton _, ?_, ?_, ?_, ?_⟩ ?_
  · rintro - p ⟨⟩
    refine ⟨?_, fun q hq => by cases hq⟩
    rintro first ⟨⟩
    decide
  · intro q hq
    cases hq
  · rintro info expr (_ | ⟨_, _ | ⟨_, ⟨⟩⟩⟩)
    rfl
  · intro hmargin
    cases hmargin
  · intro c hc
    obtain rfl := List.mem_singleton.mp hc
    exact of_closed rfl rfl (of_variable _ _) rfl rfl rfl rfl (by decide) (by decide) (by decide)

theorem wellLaid_callOverLines : WellLaid .standard Options.default.maxDepth callOverLines := by
  refine @intro _ _ _ [⟨⟨1, 3, by decide, by decide⟩, ⟨2, 6, by decide, by decide⟩⟩,
      ⟨⟨2, 7, by decide, by decide⟩, ⟨2, 14, by decide, by decide⟩⟩]
    ⟨rfl, .cons_cons (by decide) (.singleton _), ?_, ?_, ?_, ?_⟩ ?_
  · rintro - p ⟨⟩
    refine ⟨?_, ?_⟩
    · rintro first ⟨⟩
      decide
    · rintro q ⟨⟩
      decide
  · rintro q ⟨⟩ last ⟨⟩
    decide
  · intro info expr hpiece
    cases hpiece
  · intro hmargin
    cases hmargin
  · intro c hc
    rcases List.mem_pair.mp hc with rfl | rfl
    · exact wellLaid_negation
    · exact wellLaid_message

/-- The call contains the brackets below the operator, two levels down, and all its other parts. -/
theorem contains_callOverLines : ∃ outer, Options.default.spanOf callOverLines = .ok outer ∧
    outer.start ≤ outer.stop ∧ ∀ part, PartOf part callOverLines →
      ∃ inner, Options.default.spanOf part = .ok inner ∧ outer.Contains inner := by
  have hspan : Options.default.spanOf callOverLines =
      .ok ⟨⟨1, 1, by decide, by decide⟩, ⟨2, 15, by decide, by decide⟩⟩ := rfl
  exact spanOf_contains_parts rfl wellLaid_callOverLines hspan .refl

end WellLaid

end SourceSpan
