import Mathlib.Data.List.Forall2
import SourceSpan.Proofs.Depth
import SourceSpan.Proofs.Refusal
import SourceSpan.Proofs.Spine
import SourceSpan.Report

/-!
# Values that are measured alike

Two values are alike if their rules read corresponding metadata and descend into children that are
alike again. What no rule reads may differ between them in any way: the arguments of a closed call,
what stands between the first and the last item of an open block, the key of an access, the letter
of a sigil. How metadata corresponds is left open; it may be the same, or the same elsewhere in the
text, all positions moved by the same number of lines and columns.

The spans of values that are alike correspond in the same way, and where one of them has no span, the
other has none for the same reason. In particular parts that no rule reads have no influence. A value
without a rule is read by no rule either, but it is written when it is refused, so there everything
counts that may keep it from being written.
-/

namespace SourceSpan

open Layout

/-! ### Corresponding outcomes -/

/-- Both reports are of one type and hold the same facts. What a malformed value is shown as is not
one of them. -/
def Report.SameFacts : Report → Report → Prop
  | .malformed _ kind, .malformed _ kind' => kind = kind'
  | report, report' => report = report'

theorem Report.sameFacts_refl (report : Report) : report.SameFacts report := by
  cases report <;> rfl

/-- The second outcome follows from the first by `f`, or both are faults that are related. -/
def Corresponds {α β : Type} (related : Fault → Fault → Prop) (f : α → β) :
    Except Fault α → Except Fault β → Prop
  | .ok a, .ok b => b = f a
  | .error fault, .error fault' => related fault fault'
  | _, _ => False

/-- The second outcome follows from the first by `f`, or both are faults with the same facts. -/
abbrev Follows {α β : Type} (f : α → β) : Except Fault α → Except Fault β → Prop :=
  Corresponds (fun fault fault' => fault.report.SameFacts fault'.report) f

/-- The fault is that a value is refused. -/
def Fault.isRefusal : Fault → Bool
  | .unrecognized _ => true
  | _ => false

/-- Two faults of rules match if they have the same facts. Values that are refused are of one kind
and correspond by `R`, because what their refusals end as depends on the values themselves. -/
inductive Fault.Matches (R : Value → Value → Prop) : Fault → Fault → Prop
  | refused {w w' : Value} (hkind : w'.kind = w.kind) (hrefused : R w w') :
      Matches R (.unrecognized w) (.unrecognized w')
  | reported {fault fault' : Fault} (h : fault.isRefusal = false)
      (h' : fault'.isRefusal = false) (hsame : fault.report.SameFacts fault'.report) :
      Matches R fault fault'

/-- The second outcome of a rule follows from the first by `f`, or both are faults that match. -/
abbrev Matches {α β : Type} (R : Value → Value → Prop) (f : α → β) :
    Except Fault α → Except Fault β → Prop :=
  Corresponds (Fault.Matches R) f

namespace Corresponds

variable {α β γ δ : Type} {related related' : Fault → Fault → Prop} {f : α → β} {g : γ → δ}
  {x : Except Fault α} {y : Except Fault β}

theorem bind {next : α → Except Fault γ} {next' : β → Except Fault δ} (h : Corresponds related f x y)
    (hnext : ∀ a, Corresponds related g (next a) (next' (f a))) :
    Corresponds related g (x >>= next) (y >>= next') := by
  cases x with
  | error fault =>
      cases y with
      | error fault' => exact h
      | ok b => cases h
  | ok a =>
      cases y with
      | error fault' => cases h
      | ok b =>
          obtain rfl : b = f a := h
          exact hnext a

theorem mapError {change change' : Fault → Fault} (h : Corresponds related f x y)
    (hchange : ∀ {fault fault'}, related fault fault' →
      related' (change fault) (change' fault')) :
    Corresponds related' f (x.mapError change) (y.mapError change') := by
  cases x with
  | error fault =>
      cases y with
      | error fault' => exact hchange h
      | ok b => cases h
  | ok a =>
      cases y with
      | error fault' => cases h
      | ok b => exact h

theorem imp (h : Corresponds related f x y)
    (himp : ∀ {fault fault'}, related fault fault' → related' fault fault') :
    Corresponds related' f x y := by
  cases x <;> cases y <;> first | exact h | exact himp h

theorem eq_ok {a : α} (h : Corresponds related f x y) (hx : x = .ok a) : y = .ok (f a) := by
  subst hx
  cases y with
  | error fault => cases h
  | ok b => exact congrArg Except.ok h

end Corresponds

theorem Fault.Matches.sameFacts {R : Value → Value → Prop} {fault fault' : Fault}
    (h : fault.Matches R fault') : fault.report.SameFacts fault'.report := by
  cases h with
  | refused hkind hrefused => exact congrArg Value.text hkind.symm
  | reported _ _ hsame => exact hsame

section Matches

variable {α β γ δ : Type} {R : Value → Value → Prop} {f : α → β} {g : γ → δ}

theorem matches_fault {fault : Fault} (h : fault.isRefusal = false) :
    Matches R f (.error fault) (.error fault) :=
  .reported h h fault.report.sameFacts_refl

/-- An entry that is the same on both sides is found or missed on both. -/
theorem matches_bind_need {kind : String} {field : Field} {entry : Option α}
    {next : α → Except Fault γ} {next' : α → Except Fault δ}
    (hnext : ∀ a, entry = some a → Matches R g (next a) (next' a)) :
    Matches R g (need kind field entry >>= next) (need kind field entry >>= next') := by
  cases entry with
  | none => exact matches_fault rfl
  | some a => exact hnext a rfl

theorem matches_need {kind : String} {field : Field} {entry : Option α} {entry' : Option β}
    (h : entry' = entry.map f) :
    Matches R f (need kind field entry) (need kind field entry') := by
  subst h
  cases entry with
  | none => exact matches_fault rfl
  | some a => exact rfl

end Matches

/-! ### Moved positions -/

namespace Position

/-- The position so many lines further down and so many columns further right. -/
def moved (lines columns : Nat) (p : Position) : Position :=
  p.below p lines columns

variable {lines columns : Nat}

theorem moved_advance (p : Position) (width : Nat) :
    (p.advance width).moved lines columns = (p.moved lines columns).advance width := by
  simp only [moved, below, advance, Nat.add_right_comm]

theorem moved_below (p margin : Position) (breaks width : Nat) :
    (p.below margin breaks width).moved lines columns =
      (p.moved lines columns).below (margin.moved lines columns) breaks width := by
  simp only [moved, below, Nat.add_right_comm]

theorem moved_behind (p : Position) (width : Nat) :
    (p.behind width).moved lines 0 = (p.moved lines 0).behind width := rfl

/-- A position moves with its coordinates. One that is refused is refused for the same coordinate.
-/
theorem matches_ofInts {R : Value → Value → Prop} {line column : Int} (hline : 1 ≤ line)
    (hcolumn : columns = 0 ∨ 1 ≤ column) :
    Matches R (Position.moved lines columns) (ofInts line column)
      (ofInts (line + lines) (column + columns)) := by
  unfold ofInts ofInts?
  by_cases hbound : 1 ≤ column
  · rw [dif_pos ⟨hline, hbound⟩, dif_pos (by omega)]
    change _ = _
    simp only [moved, below, mk.injEq]
    omega
  · obtain rfl : columns = 0 := hcolumn.resolve_right hbound
    rw [dif_neg (by omega), dif_neg (by omega)]
    refine .reported rfl rfl ?_
    change Report.rejected _ = Report.rejected _
    have hbelow : ¬line < 1 ∧ ¬line + lines < 1 := by omega
    rw [coordinateIssues, coordinateIssues, if_neg hbelow.1, if_neg hbelow.2,
      Int.natCast_zero, Int.add_zero]

end Position

/-- The span so many lines further down and so many columns further right. -/
def Span.moved (lines columns : Nat) (span : Span) : Span :=
  ⟨span.start.moved lines columns, span.stop.moved lines columns⟩

theorem matches_upto {R : Value → Value → Prop} {lines columns : Nat} (start : Position)
    {stop stop' : Position} (h : stop' = stop.moved lines columns) :
    Matches R (Span.moved lines columns) (.ok ⟨start, stop⟩)
      (.ok ⟨start.moved lines columns, stop'⟩) :=
  congrArg (Span.mk _) h

/-- What the rules read from the second metadata is what they read from the first, with positions
moved. -/
structure Metadata.Follows (lines columns : Nat) (info info' : Metadata) : Prop where
  position : ∀ (R : Value → Value → Prop) kind,
    Matches R (Position.moved lines columns) (info.position kind) (info'.position kind)
  line : info'.line = info.line.map (· + (lines : Int))
  closing : info'.closing = info.closing.map (Position.moved lines columns)
  endWord : info'.endWord = info.endWord.map (Position.moved lines columns)
  last : info'.last = info.last.map (Position.moved lines columns)
  delimiter : info'.delimiter = info.delimiter
  noParens : info'.noParens = info.noParens
  token : info'.token = info.token

/-! ### Likeness -/

/-- The value is neither a node nor made of other values. -/
def Value.isPlain : Value → Bool
  | .null | .bool _ | .number _ | .text _ => true
  | _ => false

/-- Pieces of a literal are alike if they are the same text, or expressions with corresponding
metadata. -/
inductive Piece.Like (M : Metadata → Metadata → Prop) : Piece → Piece → Prop
  | text (text : String) : Like M (.text text) (.text text)
  | embedded {info info' : Metadata} (hinfo : M info info') (expr expr' : Node) :
      Like M (.embedded info expr) (.embedded info' expr')

mutual

/-- Two values are alike: the metadata that their rules read corresponds by `M`, and so does that of
the children which their rules descend into. Values without a rule are of one kind and correspond by
`R`. -/
inductive Like (M : Metadata → Metadata → Prop) (R : Value → Value → Prop) : Value → Value → Prop
  | plain {v : Value} (h : v.isPlain = true) (hrefused : R v v) : Like M R v v
  | record {entries entries' : List (String × Value)}
      (hrefused : R (.record entries) (.record entries')) :
      Like M R (.record entries) (.record entries')
  | emptySequence : Like M R (.sequence []) (.sequence [])
  /-- Only the first and the last element count. -/
  | sequence {items items' : List Value} {first first' last last' : Value}
      (hfirst : items.head? = some first) (hfirst' : items'.head? = some first')
      (hlast : items.getLast? = some last) (hlast' : items'.getLast? = some last')
      (hfront : Like M R first first') (hback : Like M R last last') :
      Like M R (.sequence items) (.sequence items')
  | bare {info info' : Metadata} (hinfo : M info info')
      (hrefused : R (.node (.bare info)) (.node (.bare info'))) :
      Like M R (.node (.bare info)) (.node (.bare info'))
  | dot {info info' : Metadata} (hinfo : M info info') {receiver receiver' : Node}
      {name name' : Option String}
      (hrefused : R (.node (.dot info receiver name)) (.node (.dot info' receiver' name'))) :
      Like M R (.node (.dot info receiver name)) (.node (.dot info' receiver' name'))
  | number {info info' : Metadata} (hinfo : M info info') (value value' : Numeral) :
      Like M R (.node (.number info value)) (.node (.number info' value'))
  | atom {info info' : Metadata} (hinfo : M info info') (value : String) :
      Like M R (.node (.atom info value)) (.node (.atom info' value))
  | string {info info' : Metadata} (hinfo : M info info') (value : String) :
      Like M R (.node (.string info value)) (.node (.string info' value))
  | variable {info info' : Metadata} (hinfo : M info info') (name : String) :
      Like M R (.node (.variable info name)) (.node (.variable info' name))
  | emptyAlias {info info' : Metadata} (hinfo : M info info') :
      Like M R (.node (.alias info [])) (.node (.alias info' []))
  /-- Only the first and the last segment count. -/
  | alias {info info' : Metadata} (hinfo : M info info') {segments segments' : List Segment}
      {first first' last last' : Segment}
      (hfirst : segments.head? = some first) (hfirst' : segments'.head? = some first')
      (hlast : segments.getLast? = some last) (hlast' : segments'.getLast? = some last')
      (hfront : SegmentLike M R first first') (hback : SegmentLike M R last last') :
      Like M R (.node (.alias info segments)) (.node (.alias info' segments'))
  | emptyBlock {info info' : Metadata} (hinfo : M info info') :
      Like M R (.node (.block info [])) (.node (.block info' []))
  /-- The items of a closed block do not count. -/
  | closedBlock {info info' : Metadata} (hinfo : M info info') (hclosing : info.hasClosing = true)
      (items items' : List Child) : Like M R (.node (.block info items)) (.node (.block info' items'))
  /-- Only the first and the last item count. -/
  | openBlock {info info' : Metadata} (hinfo : M info info') (hclosing : info.hasClosing = false)
      {items items' : List Child} {first first' last last' : Child}
      (hfirst : items.head? = some first) (hfirst' : items'.head? = some first')
      (hlast : items.getLast? = some last) (hlast' : items'.getLast? = some last')
      (hfront : Like M R first.toValue first'.toValue) (hback : Like M R last.toValue last'.toValue) :
      Like M R (.node (.block info items)) (.node (.block info' items'))
  | pair {info info' : Metadata} (hinfo : M info info') {key key' value value' : Node}
      (hkey : Like M R (.node key) (.node key')) (hvalue : Like M R (.node value) (.node value')) :
      Like M R (.node (.pair info key value)) (.node (.pair info' key' value'))
  /-- A clause, a binary operator or a range with a step, whose middle argument does not count. -/
  | operation {info info' : Metadata} (hinfo : M info info') {name : String}
      {args args' : List Child} {first first' last last' : Child}
      (hform : callForm name args = .between first last)
      (hform' : callForm name args' = .between first' last')
      (hfront : Like M R first.toValue first'.toValue) (hback : Like M R last.toValue last'.toValue) :
      Like M R (.node (.call info name args)) (.node (.call info' name args'))
  | unary {info info' : Metadata} (hinfo : M info info') {name : String} {args args' : List Child}
      {operand operand' : Child} (hform : callForm name args = .unary operand)
      (hform' : callForm name args' = .unary operand')
      (hoperand : Like M R operand.toValue operand'.toValue) :
      Like M R (.node (.call info name args)) (.node (.call info' name args'))
  | bareCall {info info' : Metadata} (hinfo : M info info') (name : String) :
      Like M R (.node (.call info name [])) (.node (.call info' name []))
  /-- The arguments of a closed call do not count, but their number does: it says whether the call is
  an operator. -/
  | closedCall {info info' : Metadata} (hinfo : M info info') (hclosing : info.hasClosing = true)
      {name : String} {args args' : List Child} (hform : callForm name args = .plain)
      (hlength : args'.length = args.length) :
      Like M R (.node (.call info name args)) (.node (.call info' name args'))
  /-- Only the last argument counts. -/
  | openCall {info info' : Metadata} (hinfo : M info info') (hclosing : info.hasClosing = false)
      {name : String} {args args' : List Child} {last last' : Child}
      (hform : callForm name args = .plain) (hform' : callForm name args' = .plain)
      (hlast : args.getLast? = some last) (hlast' : args'.getLast? = some last')
      (hback : Like M R last.toValue last'.toValue) :
      Like M R (.node (.call info name args)) (.node (.call info' name args'))
  | bareRemoteCall {info info' : Metadata} (hinfo : M info info') (dotInfo dotInfo' : Metadata)
      {receiver receiver' : Node} (name : Option String)
      (hreceiver : Like M R (.node receiver) (.node receiver')) :
      Like M R (.node (.remoteCall info dotInfo receiver name []))
        (.node (.remoteCall info' dotInfo' receiver' name []))
  | closedRemoteCall {info info' : Metadata} (hinfo : M info info')
      (hclosing : info.hasClosing = true) (dotInfo dotInfo' : Metadata) {receiver receiver' : Node}
      (name name' : Option String) (args args' : List Child)
      (hreceiver : Like M R (.node receiver) (.node receiver')) :
      Like M R (.node (.remoteCall info dotInfo receiver name args))
        (.node (.remoteCall info' dotInfo' receiver' name' args'))
  | openRemoteCall {info info' : Metadata} (hinfo : M info info')
      (hclosing : info.hasClosing = false) (dotInfo dotInfo' : Metadata) {receiver receiver' : Node}
      (name name' : Option String) {args args' : List Child} {last last' : Child}
      (hlast : args.getLast? = some last) (hlast' : args'.getLast? = some last')
      (hreceiver : Like M R (.node receiver) (.node receiver'))
      (hback : Like M R last.toValue last'.toValue) :
      Like M R (.node (.remoteCall info dotInfo receiver name args))
        (.node (.remoteCall info' dotInfo' receiver' name' args'))
  | access {info info' : Metadata} (hinfo : M info info') {subject subject' : Node} (key key' : Node)
      (hsubject : Like M R (.node subject) (.node subject')) :
      Like M R (.node (.access info subject key)) (.node (.access info' subject' key'))
  | qualifiedTuple {info info' : Metadata} (hinfo : M info info') {receiver receiver' : Node}
      (items items' : List Node) (hreceiver : Like M R (.node receiver) (.node receiver')) :
      Like M R (.node (.qualifiedTuple info receiver items))
        (.node (.qualifiedTuple info' receiver' items'))
  | embedded {info info' : Metadata} (hinfo : M info info') (expr expr' : Node) :
      Like M R (.node (.embedded info expr)) (.node (.embedded info' expr'))
  | interpolation {info info' : Metadata} (hinfo : M info info') {pieces pieces' : List Piece}
      (hpieces : List.Forall₂ (Piece.Like M) pieces pieces') :
      Like M R (.node (.interpolation info pieces)) (.node (.interpolation info' pieces'))
  | interpolatedAtom {info info' bodyInfo bodyInfo' : Metadata} (hinfo : M info info')
      (hbody : M bodyInfo bodyInfo') {pieces pieces' : List Piece}
      (hpieces : List.Forall₂ (Piece.Like M) pieces pieces') :
      Like M R (.node (.interpolatedAtom info bodyInfo pieces))
        (.node (.interpolatedAtom info' bodyInfo' pieces'))
  | bitstring {info info' : Metadata} (hinfo : M info info') (items items' : List Node) :
      Like M R (.node (.bitstring info items)) (.node (.bitstring info' items'))
  | sigil {info info' : Metadata} (hinfo : M info info') (letter letter' : String)
      (bodyInfo bodyInfo' : Metadata) {pieces pieces' : List Piece}
      (hpieces : List.Forall₂ (Piece.Like M) pieces pieces') (modifiers : String) :
      Like M R (.node (.sigil info letter bodyInfo pieces modifiers))
        (.node (.sigil info' letter' bodyInfo' pieces' modifiers))

/-- Parts of a dotted name are alike if they are the same name or nodes that are alike. -/
inductive SegmentLike (M : Metadata → Metadata → Prop) (R : Value → Value → Prop) :
    Segment → Segment → Prop
  | name (text : String) : SegmentLike M R (.name text) (.name text)
  | node {n n' : Node} (h : Like M R (.node n) (.node n')) : SegmentLike M R (.node n) (.node n')

end

/-! ### Rules -/

namespace Metadata.Follows

variable {R : Value → Value → Prop} {lines columns : Nat} {info info' : Metadata} {kind : String}

theorem hasClosing_eq (h : info.Follows lines columns info') :
    info'.hasClosing = info.hasClosing := by
  rw [Metadata.hasClosing, Metadata.hasClosing, h.closing, h.endWord, Option.isSome_map,
    Option.isSome_map]

theorem delimiterOf_eq (h : info.Follows lines columns info') :
    delimiterOf info' = delimiterOf info := by
  rw [delimiterOf, delimiterOf, h.delimiter]

theorem closingStop (h : info.Follows lines columns info') :
    Matches R (Position.moved lines columns) (info.closingStop kind)
      (info'.closingStop kind) := by
  unfold Metadata.closingStop
  rw [h.endWord]
  cases info.endWord with
  | some p => exact (p.moved_advance endWordWidth).symm
  | none =>
      refine (matches_need h.closing).bind fun p => ?_
      exact (p.moved_advance bracketWidth).symm

theorem closingSpan (h : info.Follows lines columns info') (start : Position) :
    Matches R (Span.moved lines columns) (info.closingSpan kind start)
      (info'.closingSpan kind (start.moved lines columns)) :=
  h.closingStop.bind fun _ => rfl

theorem enclosedSpan (h : info.Follows lines columns info') :
    Matches R (Span.moved lines columns) (Layout.enclosedSpan info kind)
      (Layout.enclosedSpan info' kind) :=
  (h.position _ kind).bind fun start => h.closingSpan start

end Metadata.Follows

namespace Layout

variable {R : Value → Value → Prop} {lines columns : Nat} {info info' : Metadata}
  {within within' : Value → Except Fault Span}

theorem moved_textStop (start : Position) (text : String) (opening closing : Nat) :
    (textStop start text opening closing).moved lines columns =
      textStop (start.moved lines columns) text opening closing := by
  unfold textStop
  dsimp only
  split_ifs
  · exact start.moved_advance _
  · exact start.moved_below start _ _

theorem moved_afterText (start here : Position) (text : String) :
    (afterText start here text).moved lines columns =
      afterText (start.moved lines columns) (here.moved lines columns) text := by
  unfold afterText
  dsimp only
  split_ifs
  · exact here.moved_advance _
  · exact here.moved_below start _ _

theorem matches_between {first first' last last' : Value}
    (hfirst : Matches R (Span.moved lines columns) (within first) (within' first'))
    (hlast : Matches R (Span.moved lines columns) (within last) (within' last')) :
    Matches R (Span.moved lines columns) (between within first last) (between within' first' last') :=
  hfirst.bind fun _ => hlast.bind fun _ => rfl

/-- A hull runs from the first value to the last, also if there is only one. -/
theorem hull_eq_between (first : Value) (rest : List Value) :
    hull within (first :: rest) = between within first (rest.getLast?.getD first) := by
  rw [hull_cons]
  cases rest.getLast? with
  | some last => rfl
  | none =>
      unfold between
      cases hfirst : within first with
      | error fault => rw [Option.getD_none, hfirst]; rfl
      | ok span => rw [Option.getD_none, hfirst]; rfl

section Pieces

variable {M : Metadata → Metadata → Prop} {pieces pieces' : List Piece}

theorem hasEmbedded_of_like (h : List.Forall₂ (Piece.Like M) pieces pieces') :
    hasEmbedded pieces' = hasEmbedded pieces := by
  induction h with
  | nil => rfl
  | cons hpiece _ ih =>
      cases hpiece with
      | text text => exact ih
      | embedded hinfo expr expr' => rfl

theorem matches_walk (hM : ∀ {info info'}, M info info' → info.Follows lines columns info')
    (h : List.Forall₂ (Piece.Like M) pieces pieces') (start here : Position) :
    Matches R (Position.moved lines columns) (walk start here pieces)
      (walk (start.moved lines columns) (here.moved lines columns) pieces') := by
  induction h generalizing here with
  | nil => exact rfl
  | cons hpiece _ ih =>
      cases hpiece with
      | text text =>
          rw [walk, walk, ← moved_afterText]
          exact ih _
      | embedded hinfo expr expr' =>
          rw [walk, walk]
          refine (matches_need (hM hinfo).closing).bind fun closing => ?_
          rw [← closing.moved_advance]
          exact ih _

/-- An interpolated literal moves as a whole, unless it closes at the margin: then its last column
stays. -/
theorem matches_interpolationStop
    (hM : ∀ {info info'}, M info info' → info.Follows lines columns info')
    (h : List.Forall₂ (Piece.Like M) pieces pieces') (delimiter : String) (start : Position)
    (hmargin : columns = 0 ∨ (isTriple delimiter && hasEmbedded pieces) = false) :
    Matches R (Position.moved lines columns) (interpolationStop pieces delimiter start)
      (interpolationStop pieces' delimiter (start.moved lines columns)) := by
  refine (matches_walk hM h start start).bind fun here => ?_
  rw [hasEmbedded_of_like h]
  split_ifs with hsome htriple
  · rcases hmargin with rfl | hmargin
    · exact (here.moved_behind delimiter.length).symm
    · rw [hsome, htriple] at hmargin
      cases hmargin
  · exact (here.moved_advance 1).symm
  · exact (here.moved_advance 2).symm

theorem matches_sigilStop (hM : ∀ {info info'}, M info info' → info.Follows lines columns info')
    (hinfo : info.Follows lines columns info') (h : List.Forall₂ (Piece.Like M) pieces pieces')
    (modifiers : String)
    (hmargin : columns = 0 ∨ (info.delimiter.any isTriple && hasEmbedded pieces) = false) :
    Matches R (Position.moved lines columns) (sigilStop info pieces modifiers)
      (sigilStop info' pieces' modifiers) := by
  refine (hinfo.position _ _).bind fun start => ?_
  rw [hinfo.delimiter]
  cases hdelimiter : info.delimiter with
  | none => exact matches_fault rfl
  | some delimiter =>
      rw [hdelimiter] at hmargin
      refine (matches_interpolationStop hM h delimiter start hmargin).bind fun bodyStop => ?_
      rw [hasEmbedded_of_like h]
      dsimp only
      split_ifs
      · change _ = Position.moved lines columns _
        rw [Position.moved_below, Position.moved_advance]
      · exact (bodyStop.moved_advance _).symm
      · change _ = Position.moved lines columns _
        rw [Position.moved_advance, Position.moved_advance]

end Pieces

theorem matches_unarySpan (hinfo : info.Follows lines columns info') (name : String)
    {operand operand' : Child}
    (h : Matches R (Span.moved lines columns) (within operand.toValue) (within' operand'.toValue)) :
    Matches R (Span.moved lines columns) (unarySpan within info name operand)
      (unarySpan within' info' name operand') := by
  refine (hinfo.position _ _).bind fun start => h.bind fun span => ?_
  have hline : (span.moved lines columns).stop.line = (start.moved lines columns).line ↔
      span.stop.line = start.line := Nat.add_right_cancel_iff
  simp only [hline]
  split_ifs
  · exact matches_upto start rfl
  · exact matches_upto start (span.stop.moved_advance _).symm

/-- A call stops after its closing token or after its last argument, and a call with neither as its
own rule says. -/
theorem matches_callFrom (hinfo : info.Follows lines columns info') (kind : String)
    (start : Position) {args args' : List Child} {bare bare' : Except Fault Span}
    (h : info.hasClosing = true ∨
      (args = [] ∧ args' = [] ∧ Matches R (Span.moved lines columns) bare bare') ∨
      ∃ last last', args.getLast? = some last ∧ args'.getLast? = some last' ∧
        Matches R (Span.moved lines columns) (within last.toValue) (within' last'.toValue)) :
    Matches R (Span.moved lines columns) (callFrom info kind start args bare within)
      (callFrom info' kind (start.moved lines columns) args' bare' within') := by
  unfold callFrom
  rw [hinfo.hasClosing_eq]
  split_ifs with hclosing
  · exact hinfo.closingSpan start
  · rcases h.resolve_left hclosing with ⟨rfl, rfl, hbare⟩ | ⟨last, last', hlast, hlast', hback⟩
    · exact hbare
    · rw [hlast, hlast']
      exact hback.bind fun span => matches_upto start rfl

theorem matches_bareRemoteCall (hinfo : info.Follows lines columns info') (name : Option String)
    (start : Position) :
    Matches R (Span.moved lines columns) (bareRemoteCall info name start)
      (bareRemoteCall info' name (start.moved lines columns)) := by
  refine (hinfo.position _ _).bind fun own => ?_
  rw [hinfo.noParens]
  exact matches_upto start (own.moved_advance _).symm

theorem matches_frontedSpan (hinfo : info.Follows lines columns info') (kind : String)
    {front front' : Node}
    (h : Matches R (Span.moved lines columns) (within (.node front)) (within' (.node front'))) :
    Matches R (Span.moved lines columns) (frontedSpan within info kind front)
      (frontedSpan within' info' kind front') :=
  h.bind fun span => hinfo.closingSpan span.start

/-- A block is as wide as its brackets, or as its first and its last item. -/
theorem matches_blockSpan (hinfo : info.Follows lines columns info') {items items' : List Child}
    (h : info.hasClosing = true ∨ (items = [] ∧ items' = []) ∨
      ∃ first first' last last', items.head? = some first ∧ items'.head? = some first' ∧
        items.getLast? = some last ∧ items'.getLast? = some last' ∧
        Matches R (Span.moved lines columns) (within first.toValue) (within' first'.toValue) ∧
        Matches R (Span.moved lines columns) (within last.toValue) (within' last'.toValue)) :
    Matches R (Span.moved lines columns) (blockSpan within info items)
      (blockSpan within' info' items') := by
  rw [blockSpan_eq, blockSpan_eq, hinfo.hasClosing_eq]
  split_ifs with hclosing
  · exact hinfo.enclosedSpan
  · rcases h.resolve_left hclosing with ⟨rfl, rfl⟩ |
      ⟨first, first', last, last', hfirst, hfirst', hlast, hlast', hfront, hback⟩
    · exact matches_fault rfl
    · obtain ⟨rest, rfl⟩ := List.head?_eq_some_iff.mp hfirst
      obtain ⟨rest', rfl⟩ := List.head?_eq_some_iff.mp hfirst'
      rw [List.getLast?_cons, Option.some.injEq] at hlast hlast'
      simp only [hull_eq_between, List.getLast?_map, Option.getD_map, hlast, hlast']
      exact matches_between hfront hback

theorem lastArgument?_eq_some {args : List Child} {last : Child} (hclosing : info.hasClosing = false)
    (h : args.getLast? = some last) : lastArgument? info args = some last.toValue := by
  rw [lastArgument?, hclosing, h]
  rfl

theorem layout_plainCall {name : String} {args : List Child} (h : callForm name args = .plain) :
    Value.layout within (.node (.call info name args)) =
      info.position Shape.call.kind >>= fun start =>
        callFrom info Shape.call.kind start args (.ok ⟨start, start⟩) within := by
  simp only [Value.layout, Node.layout, callSpan_eq, h, plainCallSpan_eq]

theorem layout_remoteCall {dotInfo : Metadata} {receiver : Node} {name : Option String}
    {args : List Child} : Value.layout within (.node (.remoteCall info dotInfo receiver name args)) =
      within (.node receiver) >>= fun front =>
        callFrom info Shape.remoteCall.kind front.start args
          (bareRemoteCall info name front.start) within :=
  remoteCallSpan_eq within info receiver name args

theorem matches_aliasFrom {M : Metadata → Metadata → Prop} {last last' : Segment}
    (hinfo : info.Follows lines columns info') (h : SegmentLike M R last last') (start : Position)
    (hchildren : ∀ c ∈ last.visited, ∀ c', Like M R c c' →
      Matches R (Span.moved lines columns) (within c) (within' c')) :
    Matches R (Span.moved lines columns) (aliasFrom info start last within)
      (aliasFrom info' (start.moved lines columns) last' within') := by
  cases h with
  | name text =>
      refine (matches_need hinfo.last).bind fun p => ?_
      exact matches_upto start (p.moved_advance _).symm
  | node h =>
      refine (hchildren _ List.mem_cons_self _ h).bind fun span => ?_
      exact matches_upto start rfl

/-- Without the first and the last argument nothing is left of an operator, so the number of
arguments decides whether there is one. -/
theorem callForm_plain_of_length {name : String} {args args' : List Child}
    (h : callForm name args = .plain) (hlength : args'.length = args.length) :
    callForm name args' = .plain := by
  match args, args', hlength with
  | [], [], _ => rfl
  | [_], [_], _ =>
      simp only [callForm] at h ⊢
      split_ifs at h ⊢
      rfl
  | [_, _], [_, _], _ =>
      simp only [callForm] at h ⊢
      split_ifs at h ⊢
      rfl
  | [_, _, _], [_, _, _], _ =>
      simp only [callForm] at h ⊢
      split_ifs at h ⊢
      rfl
  | _ :: _ :: _ :: _ :: _, _ :: _ :: _ :: _ :: _, _ => rfl

end Layout

variable {lines columns : Nat} {M : Metadata → Metadata → Prop} {R : Value → Value → Prop}

/-- Values that are alike have rules that give corresponding outcomes, if the spans of the children
correspond. -/
theorem Like.layout {within within' : Value → Except Fault Span} {v v' : Value} (h : Like M R v v')
    (hM : ∀ {info info'}, M info info' → info.Follows lines columns info')
    (hchildren : ∀ c ∈ v.visited, ∀ c', Like M R c c' →
      Matches R (Span.moved lines columns) (within c) (within' c'))
    (hmargin : columns = 0 ∨ v.closesAtMargin = false) :
    Matches R (Span.moved lines columns) (v.layout within) (v'.layout within') := by
  cases h with
  | plain h hrefused =>
      cases v with
      | sequence items => cases h
      | record entries => cases h
      | node n => cases h
      | _ => exact .refused rfl hrefused
  | record hrefused => exact .refused rfl hrefused
  | emptySequence => exact matches_fault rfl
  | @sequence items items' first first' last last' hfirst hfirst' hlast hlast' hfront hback =>
      have hfirstMem : first ∈ ends items := mem_ends_of_head? hfirst
      have hlastMem : last ∈ ends items := mem_ends_of_getLast? hlast
      obtain ⟨rest, rfl⟩ := List.head?_eq_some_iff.mp hfirst
      obtain ⟨rest', rfl⟩ := List.head?_eq_some_iff.mp hfirst'
      rw [List.getLast?_cons, Option.some.injEq] at hlast hlast'
      change Matches R _ (hull within (first :: rest)) (hull within' (first' :: rest'))
      rw [hull_eq_between, hull_eq_between, hlast, hlast']
      exact matches_between (hchildren first hfirstMem first' hfront)
        (hchildren last hlastMem last' hback)
  | bare hinfo hrefused => exact .refused rfl hrefused
  | dot hinfo hrefused => exact .refused rfl hrefused
  | number hinfo value value' =>
      refine ((hM hinfo).position _ _).bind fun start => ?_
      rw [(hM hinfo).token]
      refine matches_bind_need fun token _ => ?_
      exact matches_upto start (start.moved_advance _).symm
  | atom hinfo value =>
      refine ((hM hinfo).position _ _).bind fun start => ?_
      rw [(hM hinfo).delimiter]
      split
      · exact matches_upto start (moved_textStop start value 1 0).symm
      · exact matches_upto start (moved_textStop start value 2 _).symm
  | string hinfo value =>
      refine ((hM hinfo).position _ _).bind fun start => ?_
      rw [(hM hinfo).delimiter]
      refine matches_bind_need fun delimiter _ => ?_
      split_ifs
      · exact matches_upto start (start.moved_below start _ _).symm
      · exact matches_upto start (moved_textStop start value 1 _).symm
  | «variable» hinfo name =>
      refine ((hM hinfo).position _ _).bind fun start => ?_
      exact matches_upto start (start.moved_advance _).symm
  | emptyAlias hinfo => exact matches_fault rfl
  | @«alias» info info' hinfo segments segments' first first' last last' hfirst hfirst' hlast hlast'
      hfront hback =>
      have hsegment : ∀ segment ∈ ends segments, ∀ c ∈ segment.visited,
          c ∈ Value.visited (.node (.alias info segments)) :=
        fun segment hsegment c hc => List.mem_flatMap.mpr ⟨segment, hsegment, hc⟩
      have hstop := fun start => matches_aliasFrom (hM hinfo) hback start fun c hc =>
        hchildren c (hsegment last (mem_ends_of_getLast? hlast) c hc)
      have hstart := fun c hc => hchildren c (hsegment first (mem_ends_of_head? hfirst) c hc)
      obtain ⟨rest, rfl⟩ := List.head?_eq_some_iff.mp hfirst
      obtain ⟨rest', rfl⟩ := List.head?_eq_some_iff.mp hfirst'
      rw [List.getLast?_cons, Option.some.injEq] at hlast hlast'
      subst hlast hlast'
      simp only [Value.layout, Node.layout, aliasSpan_cons]
      -- A node that is the only segment is asked for twice, and its span corresponds both times.
      cases hfront with
      | name text => exact ((hM hinfo).position _ _).bind hstop
      | node h =>
          have hfront := hstart _ List.mem_cons_self _ h
          exact hfront.bind fun span => hstop span.start
  | emptyBlock hinfo =>
      change Matches R _ (blockSpan within _ []) (blockSpan within' _ [])
      exact matches_blockSpan (hM hinfo) (.inr (.inl ⟨rfl, rfl⟩))
  | closedBlock hinfo hclosing items items' => exact matches_blockSpan (hM hinfo) (.inl hclosing)
  | @openBlock info info' hinfo hclosing items items' first first' last last' hfirst hfirst' hlast
      hlast' hfront hback =>
      have hitem : ∀ item ∈ ends items,
          item.toValue ∈ Value.visited (.node (.block info items)) := by
        intro item hitem
        rw [Value.visited, Node.visited, if_neg (Bool.eq_false_iff.mp hclosing)]
        exact List.mem_map_of_mem hitem
      have hfront := hchildren _ (hitem first (mem_ends_of_head? hfirst)) _ hfront
      have hback := hchildren _ (hitem last (mem_ends_of_getLast? hlast)) _ hback
      exact matches_blockSpan (hM hinfo) (.inr (.inr
        ⟨first, first', last, last', hfirst, hfirst', hlast, hlast', hfront, hback⟩))
  | pair hinfo hkey hvalue =>
      exact matches_between (hchildren _ List.mem_cons_self _ hkey)
        (hchildren _ (List.mem_cons_of_mem _ List.mem_cons_self) _ hvalue)
  | @operation info info' hinfo name args args' first first' last last' hform hform' hfront hback =>
      have hvisited : Value.visited (.node (.call info name args)) =
          [first.toValue, last.toValue] := by
        rw [Value.visited, Node.visited, hform]
      rw [hvisited] at hchildren
      simp only [Value.layout, Node.layout, callSpan_eq, hform, hform']
      exact matches_between (hchildren _ List.mem_cons_self _ hfront)
        (hchildren _ (List.mem_cons_of_mem _ List.mem_cons_self) _ hback)
  | @unary info info' hinfo name args args' operand operand' hform hform' hoperand =>
      have hvisited : Value.visited (.node (.call info name args)) = [operand.toValue] := by
        rw [Value.visited, Node.visited, hform]
      rw [hvisited] at hchildren
      simp only [Value.layout, Node.layout, callSpan_eq, hform, hform']
      exact matches_unarySpan (hM hinfo) name (hchildren _ List.mem_cons_self _ hoperand)
  | bareCall hinfo name =>
      rw [layout_plainCall rfl, layout_plainCall rfl]
      refine ((hM hinfo).position _ _).bind fun start => ?_
      exact matches_callFrom (hM hinfo) _ start (.inr (.inl ⟨rfl, rfl, matches_upto start rfl⟩))
  | closedCall hinfo hclosing hform hlength =>
      rw [layout_plainCall hform, layout_plainCall (callForm_plain_of_length hform hlength)]
      refine ((hM hinfo).position _ _).bind fun start => ?_
      exact matches_callFrom (hM hinfo) _ start (.inl hclosing)
  | @openCall info info' hinfo hclosing name args args' last last' hform hform' hlast hlast' hback =>
      have hvisited : last.toValue ∈ Value.visited (.node (.call info name args)) := by
        rw [Value.visited, Node.visited, hform]
        exact Option.mem_toList.mpr (lastArgument?_eq_some hclosing hlast)
      rw [layout_plainCall hform, layout_plainCall hform']
      refine ((hM hinfo).position _ _).bind fun start => ?_
      exact matches_callFrom (hM hinfo) _ start
        (.inr (.inr ⟨last, last', hlast, hlast', hchildren _ hvisited _ hback⟩))
  | bareRemoteCall hinfo dotInfo dotInfo' name hreceiver =>
      rw [layout_remoteCall, layout_remoteCall]
      refine (hchildren _ List.mem_cons_self _ hreceiver).bind fun front => ?_
      exact matches_callFrom (hM hinfo) _ front.start
        (.inr (.inl ⟨rfl, rfl, matches_bareRemoteCall (hM hinfo) name front.start⟩))
  | closedRemoteCall hinfo hclosing dotInfo dotInfo' name name' args args' hreceiver =>
      rw [layout_remoteCall, layout_remoteCall]
      refine (hchildren _ List.mem_cons_self _ hreceiver).bind fun front => ?_
      exact matches_callFrom (hM hinfo) _ front.start (.inl hclosing)
  | @openRemoteCall info info' hinfo hclosing dotInfo dotInfo' receiver receiver' name name' args
      args' last last' hlast hlast' hreceiver hback =>
      have hvisited : last.toValue ∈
          Value.visited (.node (.remoteCall info dotInfo receiver name args)) :=
        List.mem_cons_of_mem _ (Option.mem_toList.mpr (lastArgument?_eq_some hclosing hlast))
      rw [layout_remoteCall, layout_remoteCall]
      refine (hchildren _ List.mem_cons_self _ hreceiver).bind fun front => ?_
      exact matches_callFrom (hM hinfo) _ front.start
        (.inr (.inr ⟨last, last', hlast, hlast', hchildren _ hvisited _ hback⟩))
  | access hinfo key key' hsubject =>
      exact matches_frontedSpan (hM hinfo) _ (hchildren _ List.mem_cons_self _ hsubject)
  | qualifiedTuple hinfo items items' hreceiver =>
      exact matches_frontedSpan (hM hinfo) _ (hchildren _ List.mem_cons_self _ hreceiver)
  | embedded hinfo expr expr' => exact (hM hinfo).enclosedSpan
  | interpolation hinfo hpieces =>
      refine ((hM hinfo).position _ _).bind fun start => ?_
      rw [(hM hinfo).delimiterOf_eq]
      refine (matches_interpolationStop hM hpieces _ start hmargin).bind fun stop => ?_
      exact matches_upto start rfl
  | interpolatedAtom hinfo hbody hpieces =>
      refine ((hM hbody).position _ _).bind fun start => ?_
      rw [(hM hinfo).delimiterOf_eq]
      refine (matches_interpolationStop hM hpieces _ start hmargin).bind fun stop => ?_
      exact matches_upto start rfl
  | bitstring hinfo items items' =>
      refine (hM hinfo).enclosedSpan.bind fun span => ?_
      exact matches_upto span.start (span.stop.moved_advance _).symm
  | sigil hinfo letter letter' bodyInfo bodyInfo' hpieces modifiers =>
      refine ((hM hinfo).position _ _).bind fun start => ?_
      refine (matches_sigilStop hM (hM hinfo) hpieces modifiers hmargin).bind fun stop => ?_
      exact matches_upto start rfl

/-! ### Runs -/

theorem Machine.raised_eq_self {machine : Machine} {maxDepth : Nat} {root : Value} {fault : Fault}
    (h : fault.isRefusal = false) : machine.raised maxDepth root fault = fault := by
  cases fault with
  | unrecognized w => cases h
  | _ => rfl

/-- Faults that leave the machine in computations for `v` and `v'` are related if they have the same
facts, or if they are what the refusals of values end as that correspond by `R`. -/
structure Machine.Relates (machine : Machine) (maxDepth : Nat) (v v' : Value)
    (R : Value → Value → Prop) (related : Fault → Fault → Prop) : Prop where
  reported : ∀ {fault fault' : Fault}, fault.report.SameFacts fault'.report →
    related fault fault'
  refused : ∀ {w w' : Value}, w'.kind = w.kind → R w w' →
    related (machine.raised maxDepth v (.unrecognized w))
      (machine.raised maxDepth v' (.unrecognized w'))

variable {machine : Machine} {maxDepth : Nat} {related : Fault → Fault → Prop}

theorem Fault.Matches.raised {v v' : Value} {fault fault' : Fault} (h : fault.Matches R fault')
    (hR : machine.Relates maxDepth v v' R related) :
    related (machine.raised maxDepth v fault) (machine.raised maxDepth v' fault') := by
  cases h with
  | reported h h' hsame =>
      rw [Machine.raised_eq_self h, Machine.raised_eq_self h']
      exact hR.reported hsame
  | refused hkind hrefused => exact hR.refused hkind hrefused

namespace Like

variable {v v' : Value}

theorem kind_eq (h : Like M R v v') : v'.kind = v.kind := by
  cases h <;> rfl

/-- The recorded lines correspond. -/
theorem ownLine_eq (h : Like M R v v')
    (hM : ∀ {info info'}, M info info' → info.Follows lines columns info') :
    v'.ownLine = v.ownLine.map (· + (lines : Int)) := by
  cases h with
  | @plain v h =>
      cases v with
      | node n => cases h
      | _ => rfl
  | record => rfl
  | emptySequence => rfl
  | sequence => rfl
  | _ => exact (hM (by assumption)).line

/-- Computations for values that are alike have corresponding outcomes, whatever their budget. -/
theorem spanAt {tooDeep tooDeep' : Value → Fault} {budget : Nat} (h : Like M R v v')
    (hM : ∀ {info info'}, M info info' → info.Follows lines columns info')
    (hdeep : ∀ {c c'}, Like M R c c' → (tooDeep c).Matches R (tooDeep' c'))
    (hmargin : columns = 0 ∨
      ∀ depth < budget, ∀ w ∈ v.atDepth depth, w.closesAtMargin = false) :
    Matches R (Span.moved lines columns) (v.spanAt tooDeep budget) (v'.spanAt tooDeep' budget) := by
  induction budget generalizing v v' with
  | zero => exact hdeep h
  | succ budget ih =>
      refine h.layout hM (fun c hc c' hlike => ih hlike (hmargin.imp_right ?_))
        (hmargin.imp_right ?_)
      · intro hmargin depth hdepth w hw
        exact hmargin (depth + 1) (Nat.succ_lt_succ hdepth) w (List.mem_flatMap.mpr ⟨c, hc, hw⟩)
      · intro hmargin
        exact hmargin 0 (Nat.succ_pos budget) v List.mem_cons_self

/-- Values that are alike have corresponding spans, or none for related reasons. -/
theorem span (h : Like M R v v')
    (hM : ∀ {info info'}, M info info' → info.Follows lines columns info')
    (hR : machine.Relates maxDepth v v' R related)
    (hmargin : columns = 0 ∨
      ∀ w, v.Reaches (machine.reach maxDepth) w → w.closesAtMargin = false) :
    Corresponds related (Span.moved lines columns) (v.span machine maxDepth)
      (v'.span machine maxDepth) := by
  refine (h.spanAt hM (fun {c c'} hc => ?_) (hmargin.imp_right ?_)).mapError fun hfault =>
    hfault.raised hR
  · unfold Machine.depthFault
    rw [hc.kind_eq, h.kind_eq]
    split_ifs <;> exact .reported rfl rfl rfl
  · intro hmargin depth hdepth w hw
    exact hmargin w ⟨depth, Nat.lt_succ_iff.mp hdepth, hw⟩

end Like

/-! ### Comments -/

/-- The comment so many lines further down. -/
def Comment.moved (lines : Nat) (comment : Comment) : Comment :=
  { comment with line := comment.line + lines, line_pos := Nat.lt_add_right lines comment.line_pos }

theorem Span.moved_widenedStop (span : Span) (last : Comment) (line : Int) :
    (span.widenedStop last line).moved lines 0 =
      (span.moved lines 0).widenedStop (last.moved lines) (line + lines) := by
  have hline : ((last.moved lines).line : Int) = line + lines ↔ (last.line : Int) = line := by
    simp only [Comment.moved]
    omega
  unfold widenedStop
  rw [if_congr hline rfl rfl]
  split_ifs
  · exact span.stop.moved_advance _
  · rfl

/-- Widening moves with the span, the comments and the line of the value. -/
theorem Span.matches_widen {v v' : Value} (span : Span)
    (hcomments : v'.comments = v.comments.map (Comment.moved lines))
    (hline : v'.ownLine = v.ownLine.map (· + (lines : Int))) :
    Matches R (Span.moved lines 0) (span.widen v) ((span.moved lines 0).widen v') := by
  unfold widen
  rw [hcomments]
  cases v.comments with
  | nil => exact rfl
  | cons first rest =>
      have hstart (column : Int) : Matches R (Position.moved lines 0)
          (Position.ofInts first.line column) (Position.ofInts (first.moved lines).line column) := by
        have hlow : 1 ≤ (first.line : Int) := Int.natCast_pos.mpr first.line_pos
        have hofInts := @Position.matches_ofInts lines 0 R _ column hlow (.inl rfl)
        rwa [Int.natCast_zero, Int.add_zero, ← Int.natCast_add] at hofInts
      have hlast : (rest.map (Comment.moved lines)).getLast?.getD (first.moved lines) =
          (rest.getLast?.getD first).moved lines := by
        rw [List.getLast?_map, Option.getD_map]
      have hown : v'.ownLine.getD ((span.moved lines 0).start.line : Int) =
          v.ownLine.getD span.start.line + lines := by
        rw [hline]
        cases v.ownLine <;> rfl
      simp only [List.map_cons, hlast, hown]
      refine (hstart _).bind fun start => ?_
      exact matches_upto start (span.moved_widenedStop _ _).symm

/-- Under any options, values that are alike have corresponding spans or none for related reasons.
Where comments are asked for, those of the values themselves have to correspond. -/
theorem Like.spanOf {options : Options} {v v' : Value} (h : Like M R v v')
    (hM : ∀ {info info'}, M info info' → info.Follows lines columns info')
    (hR : machine.Relates options.maxDepth v v' R related)
    (hmargin : columns = 0 ∨
      ∀ w, v.Reaches (machine.reach options.maxDepth) w → w.closesAtMargin = false)
    (hcomments : options.includeComments = true →
      columns = 0 ∧ v'.comments = v.comments.map (Comment.moved lines)) :
    Corresponds related (Span.moved lines columns) (options.spanOf v machine)
      (options.spanOf v' machine) := by
  refine (h.span hM hR hmargin).bind fun span => ?_
  split_ifs with hinclude
  · obtain ⟨rfl, hmoved⟩ := hcomments hinclude
    refine (span.matches_widen (R := R) hmoved (h.ownLine_eq hM)).imp fun hfault => ?_
    exact hR.reported hfault.sameFacts
  · exact rfl

/-! ### Unread parts -/

/-- The same is recorded, apart from comments. -/
def Metadata.SameEntries (info info' : Metadata) : Prop :=
  ∃ comments, info' = { info with comments := comments }

theorem Metadata.matches_position (info : Metadata) (kind : String) :
    Matches R id (info.position kind) (info.position kind) := by
  refine matches_bind_need fun line _ => matches_bind_need fun column _ => ?_
  unfold Position.ofInts
  split
  · exact rfl
  · exact matches_fault rfl

theorem Metadata.SameEntries.follows {info info' : Metadata} (h : info.SameEntries info') :
    info.Follows 0 0 info' := by
  obtain ⟨comments, rfl⟩ := h
  have hmoved (entry : Option Position) : entry = entry.map (Position.moved 0 0) :=
    (congrFun Option.map_id entry).symm
  exact {
    position := fun _ kind => info.matches_position kind
    line := by simp
    closing := hmoved info.closing
    endWord := hmoved info.endWord
    last := hmoved info.last
    delimiter := rfl
    noParens := rfl
    token := rfl }

/-- The machine can write both of two values that are refused in computations for `v` and `v'`, or
the same keeps both from being written. -/
def Machine.WritesAlike (machine : Machine) (v v' w w' : Value) : Prop :=
  machine.hurdle? v' w' = machine.hurdle? v w

/-- Refusals that meet the same hurdle end with the same facts. -/
theorem Machine.relates_writesAlike {v v' : Value} (hkind : v'.kind = v.kind) :
    machine.Relates maxDepth v v' (machine.WritesAlike v v')
      (fun fault fault' => fault.report.SameFacts fault'.report) where
  reported hsame := hsame
  refused {w w'} hsort hwrites := by
    rw [Machine.raised, Machine.raised, hwrites]
    cases machine.hurdle? v w with
    | none => exact congrArg Value.text hsort.symm
    | some hurdle =>
        rw [Option.elim_some, Option.elim_some]
        cases hurdle with
        | nesting =>
            rw [Hurdle.fault, Hurdle.fault, hkind]
            exact Report.sameFacts_refl _
        | digits => exact Report.sameFacts_refl _

/-- What no rule reads has no influence. Values that differ in nothing else have the same span, or
none for the same reason. Comments count only where they are asked for, and then only those of the
value itself. In values that are refused everything may differ that does not matter when they are
written. -/
theorem Options.spanOf_unread {machine : Machine} {options : Options} {v v' : Value}
    (h : Like Metadata.SameEntries (machine.WritesAlike v v') v v')
    (hcomments : options.includeComments = true → v'.comments = v.comments) :
    Follows id (options.spanOf v machine) (options.spanOf v' machine) := by
  refine h.spanOf Metadata.SameEntries.follows (Machine.relates_writesAlike h.kind_eq) (.inl rfl)
    fun hinclude => ⟨rfl, ?_⟩
  rw [hcomments hinclude]
  exact (List.map_id' v.comments).symm

/-- A call without parentheses, whose last argument is a list with one item. -/
def callOnList (front item : Node) (comments : List Comment) : Value :=
  .node (.call { line := some 1, column := some 1 } "f"
    [.node front, .node (.block
      { line := some 1, column := some 6, comments := comments,
        closing := some (Position.advance ⟨1, 1, Nat.one_pos, Nat.one_pos⟩ 7) } [.node item])])

/-- The front argument and the item could not even be measured on their own, and the comment is not
that of the call. -/
theorem Options.spanOf_callOnList :
    ∃ span, { default with includeComments := true }.spanOf
        (callOnList (.variable { } "a") (.variable { } "b") []) = .ok span ∧
      { default with includeComments := true }.spanOf (callOnList (.bare { })
        (.dot { } (.bare { }) none) [⟨1, none, "# item", Nat.one_pos⟩]) = .ok span := by
  have hlike (R : Value → Value → Prop) : Like Metadata.SameEntries R
      (callOnList (.variable { } "a") (.variable { } "b") [])
      (callOnList (.bare { }) (.dot { } (.bare { }) none) [⟨1, none, "# item", Nat.one_pos⟩]) :=
    .openCall ⟨[], rfl⟩ rfl rfl rfl rfl rfl (.closedBlock ⟨_, rfl⟩ rfl _ _)
  exact ⟨_, rfl, (spanOf_unread (hlike (Machine.standard.WritesAlike _ _)) fun _ => rfl).eq_ok rfl⟩

/-- A field of a call with two arguments. -/
def fieldOfCall (front : Node) : Value :=
  .node (.dot { } (.call { } "f" [.node front, .node (.variable { } "y")]) "g")

/-- The front argument of the call is not read, but it is written when the field is refused. So there
is a difference if it is nested too deeply for that. -/
theorem Options.spanOf_fieldOfCall :
    Like Metadata.SameEntries (fun _ _ => True) (fieldOfCall (negated 0))
      (fieldOfCall (negated 230)) ∧
    default.spanOf (fieldOfCall (negated 0)) =
      .error (.unrecognized (fieldOfCall (negated 0))) ∧
    default.spanOf (fieldOfCall (negated 230)) = .error (.tooDeep 200 "dot") := by
  refine ⟨.dot ⟨[], rfl⟩ trivial, spanOf_of_short rfl ?_ rfl, spanOf_of_callLimit_lt rfl ?_⟩
  · simp only [fieldOfCall, negated, Value.burden, Node.burden, childrenBurden, Node.info,
      Burden.calls_join, Burden.calls_under, Metadata.calls_burden]
    decide
  · have hcalls := le_calls_negated 230
    simp only [fieldOfCall, Value.burden, Node.burden, childrenBurden, Burden.calls_join,
      Burden.calls_under]
    simp only [Machine.callLimit, nodeCalls, groupCalls] at hcalls ⊢
    omega

end SourceSpan
