import SourceSpan.Layout.Interpolation
import SourceSpan.Machine
import SourceSpan.Operator

/-!
# The span of a value

Each shape of node has a rule that says where it starts and where it stops, from its metadata and
from the spans of some of its children. A rule never looks at a source text. It takes the spans of
children from a function it is given, so `Value.layout` is one step, and `Value.spanAt` repeats the
step as often as its budget allows.

A value at depth zero is the one that was asked for and its children lie one deeper. Only the
children that a rule descends into count. Whatever depth is allowed, a computation goes no deeper
than its machine can follow.
-/

namespace SourceSpan

namespace Layout

/-- How a call is laid out; arguments are given by their index. -/
inductive CallPlan where
  /-- From the start of one argument to the stop of another. -/
  | between (first last : Nat)
  /-- The name stands before the first argument. -/
  | unary
  /-- The name comes first and the arguments follow it. -/
  | plain
deriving DecidableEq

/-- A clause and a binary operator stand between their two arguments, a range with a step around the
middle one of three, and a unary operator before its operand. -/
def callPlan (name : String) (count : Nat) : CallPlan :=
  if name = "->" ∧ count = 2 then .between 0 1
  else
    match Operator.classify name count with
    | .unary => .unary
    | .binary => .between 0 1
    | .neither => if name = "..//" ∧ count = 3 then .between 0 2 else .plain

def parenthesesWidth : Nat := 2

/-- How much wider the closing token of a bitstring is than a bracket. -/
def bitstringSurplus : Nat := 1

section Rules

variable (within : Value → Except Fault Span)

/-- From the start of one value to the stop of another; the first is looked at first. -/
def between (first last : Value) : Except Fault Span := do
  let a ← within first
  let b ← within last
  return ⟨a.start, b.stop⟩

/-- From the start of the first value to the stop of the last; a single value is looked at once. -/
def hull (items : List Value) : Except Fault Span := do
  let first ← itemAt items 0
  if items.length = 1 then
    within first
  else
    let last ← lastItem items
    between within first last

/-- An alias starts at a node in front or at its own position. It stops after a node at its end, or
after the name that is recorded as its last. -/
def aliasSpan (info : Metadata) (segments : List Segment) : Except Fault Span :=
  if segments.isEmpty then
    .error .emptyAlias
  else do
    let first ← itemAt segments 0
    let last ← lastItem segments
    let start ← match first with
      | .node n => do
        let span ← within (.node n)
        pure span.start
      | .name _ => info.position Shape.alias.kind
    match last with
    | .node n => do
      let span ← within (.node n)
      return ⟨start, span.stop⟩
    | .name text => do
      let last ← need Shape.alias.kind .last info.last
      return ⟨start, last.advance text.length⟩

/-- A block stops after its closing token. Without one it is as wide as its items. -/
def blockSpan (info : Metadata) (items : List Child) : Except Fault Span :=
  if info.hasClosing then do
    let start ← info.position Shape.block.kind
    info.closingSpan Shape.block.kind start
  else if items.isEmpty then
    .error .emptyBlock
  else
    hull within (items.map Child.toValue)

/-- An operator before its operand stops where the operand stops; if that is on another line, its
width is added. -/
def unarySpan (info : Metadata) (name : String) (operand : Child) : Except Fault Span := do
  let start ← info.position Shape.call.kind
  let span ← within operand.toValue
  if span.stop.line = start.line then
    return ⟨start, span.stop⟩
  else
    return ⟨start, span.stop.advance name.length⟩

/-- A call stops after its closing token, or else after its last argument. A call with neither
covers nothing. -/
def plainCallSpan (info : Metadata) (args : List Child) : Except Fault Span := do
  let start ← info.position Shape.call.kind
  if info.hasClosing then
    info.closingSpan Shape.call.kind start
  else if args.isEmpty then
    return ⟨start, start⟩
  else
    let last ← lastItem args
    let span ← within last.toValue
    return ⟨start, span.stop⟩

def callSpan (info : Metadata) (name : String) (args : List Child) : Except Fault Span :=
  match callPlan name args.length with
  | .between i j => do
    let first ← itemAt args i
    let last ← itemAt args j
    between within first.toValue last.toValue
  | .unary => do
    let operand ← itemAt args 0
    unarySpan within info name operand
  | .plain => plainCallSpan within info args

/-- A qualified call starts with its receiver. Without a closing token and arguments it stops after
its name and, unless it is written without them, empty parentheses. -/
def remoteCallSpan (info : Metadata) (receiver : Node) (name : Option String)
    (args : List Child) : Except Fault Span := do
  let front ← within (.node receiver)
  if info.hasClosing then
    info.closingSpan Shape.remoteCall.kind front.start
  else if args.isEmpty then
    let own ← info.position Shape.remoteCall.kind
    let nameWidth := (name.map String.length).getD 0
    let parenthesesWidth := if info.noParens then 0 else parenthesesWidth
    return ⟨front.start, own.advance (nameWidth + parenthesesWidth)⟩
  else
    let last ← lastItem args
    let span ← within last.toValue
    return ⟨front.start, span.stop⟩

def frontedSpan (info : Metadata) (kind : String) (front : Node) : Except Fault Span := do
  let span ← within (.node front)
  info.closingSpan kind span.start

def enclosedSpan (info : Metadata) (kind : String) : Except Fault Span := do
  let start ← info.position kind
  info.closingSpan kind start

/-- A bitstring closes with a token of two characters. -/
def bitstringSpan (info : Metadata) : Except Fault Span := do
  let span ← enclosedSpan info Shape.bitstring.kind
  return ⟨span.start, span.stop.advance bitstringSurplus⟩

end Rules

end Layout

open Layout

/-- The span of a node, given the spans of its children. -/
def Node.layout (within : Value → Except Fault Span) : Node → Except Fault Span
  | .number info _ => numberSpan info
  | .atom info value => atomSpan info value
  | .string info value => stringSpan info value
  | .variable info name => variableSpan info name
  | .alias info segments => aliasSpan within info segments
  | .block info items => blockSpan within info items
  | .pair _ key value => between within (.node key) (.node value)
  | .call info name args => callSpan within info name args
  | .remoteCall info _ receiver name args => remoteCallSpan within info receiver name args
  | .access info subject _ => frontedSpan within info Shape.access.kind subject
  | .qualifiedTuple info receiver _ => frontedSpan within info Shape.qualifiedTuple.kind receiver
  | .embedded info _ => enclosedSpan info Shape.embedded.kind
  | .interpolation info pieces => interpolationSpan info pieces
  | .interpolatedAtom info bodyInfo pieces => interpolatedAtomSpan info bodyInfo pieces
  | .bitstring info _ => bitstringSpan info
  | .sigil info _ _ pieces modifiers => sigilSpan info pieces modifiers
  | .bare info => .error (.unrecognized (.node (.bare info)))
  | .dot info receiver name => .error (.unrecognized (.node (.dot info receiver name)))

namespace Value

/-- The span of a value, given the spans of its children. A bare sequence runs from its first
element to its last. -/
def layout (within : Value → Except Fault Span) : Value → Except Fault Span
  | .sequence items => if items.isEmpty then .error .emptySequence else hull within items
  | .node n => n.layout within
  | v => .error (.unrecognized v)

/-- The span of a value that lies within a budget of levels; `tooDeep` is the fault of a value that
lies beyond it. -/
def spanAt (tooDeep : Value → Fault) : Nat → Value → Except Fault Span
  | 0, v => .error (tooDeep v)
  | budget + 1, v => v.layout (spanAt tooDeep budget)

/-- The span of a value on a machine, whose children may lie up to `maxDepth` levels deep. -/
def span (machine : Machine) (maxDepth : Nat) (v : Value) : Except Fault Span :=
  (spanAt (machine.depthFault maxDepth v) (machine.reach maxDepth + 1) v).mapError
    (machine.raised maxDepth v)

end Value

end SourceSpan
