import SourceSpan.Batch
import SourceSpan.Schema.Node
import SourceSpan.Value.Equality

/-!
# Operands of any sort

The operations of the library can be asked for one by one, and then an operand may be a value of any
sort. An operand of the wrong sort is reported where it is first needed, after the faults that are
met on the way there.
-/

namespace SourceSpan

def Value.typeName : Value → String
  | .sequence _ => "list"
  | .node n => n.shape.title
  | v => v.kind

namespace Operand

/-- The report of an outcome that is none. -/
def reported {α : Type} (outcome : Except Fault α) : Except Report α :=
  outcome.mapError Fault.report

/-- Moves a position along its line by a number, which may have a point. -/
def shift (p : Position) : Value → Except Report Position
  | .number (.whole n) => reported (p.shift n)
  | .bool b => reported (p.shift (if b then 1 else 0))
  | .number (.real x) =>
    let column : Value := .number (.real (Float.ofNat p.column + x))
    (Schema.makePosition [("line", .int p.line), ("column", column)]).mapError Report.rejected
  | v =>
    .error (.badType ("unsupported operand type(s) for +: 'int' and " ++ Text.quoted v.typeName))

def slice (span : Span) (text : String) : Except Report String :=
  match span.slice? text.toList with
  | some covered => .ok (String.ofList covered)
  | none => .error (.noLine ((span.missingLine? text.toList).getD span.start.line))

/-- What is known of a name as that of an operator. -/
structure NameFacts where
  isUnary : Bool
  isBinary : Bool
  arrangement : Operator.Arrangement

/-- How many operands a value stands for, as far as it matters for operators. -/
def arity (v : Value) : Nat :=
  if v.same (.int 1) then 1 else if v.same (.int 2) then 2 else 0

/-- What is known of a value as the name of an operator with a number of operands. -/
def nameFacts (name operands : Value) : Except Report NameFacts :=
  match Report.unhashable? name with
  | some report => .error report
  | none =>
    match name with
    | .text name =>
      .ok ⟨Operator.isUnary name, Operator.isBinary name, Operator.classify name (arity operands)⟩
    | _ => .ok ⟨false, false, .neither⟩

/-- The things in a value: the elements of a sequence, the letters of a text, the names in a record.
-/
def items : Value → Except Report (List Value)
  | .sequence items => .ok items
  | .text s => .ok (s.toList.map fun c => .text (String.singleton c))
  | .record entries => .ok (entries.map fun entry => .text entry.1)
  | v => .error (.badType (Text.quoted v.typeName ++ " object is not iterable"))

def hasEmbedded (values : List Value) : Bool :=
  values.any fun v =>
    match v with
    | .node (.embedded ..) => true
    | _ => false

/-- The pieces that values stand for, up to the first value that is not a piece. -/
def pieces : List Value → List Piece × Option Value
  | [] => ([], none)
  | .text s :: rest =>
    let (more, wrong) := pieces rest
    (.text s :: more, wrong)
  | .node (.embedded info expr) :: rest =>
    let (more, wrong) := pieces rest
    (.embedded info expr :: more, wrong)
  | v :: _ => ([], some v)

/-- Just past the closing delimiter of an interpolated literal of these values. -/
def interpolationStop (values : List Value) (delimiter : String) (start : Position) :
    Except Report Position :=
  match pieces values with
  | (pieces, none) => reported (Layout.interpolationStop pieces delimiter start)
  | (pieces, some wrong) => do
    let _ ← reported (Layout.walk start start pieces)
    .error (.badType ("expected string or bytes-like object, got " ++ Text.quoted wrong.typeName))

/-- Just past the last modifier of a sigil. Other values lack an entry that a sigil has. -/
def sigilStop : Value → Except Report Position
  | .node (.sigil info _ _ pieces modifiers) => reported (Layout.sigilStop info pieces modifiers)
  | .node n => do
    let start ← reported (n.info.position n.kind)
    let delimiter ← reported (need n.kind .delimiter n.info.delimiter)
    match n with
    | .interpolatedAtom _ _ pieces =>
      let _ ← reported (Layout.interpolationStop pieces delimiter start)
      .error (.noEntry n.shape.title "modifiers")
    | _ => .error (.noEntry n.shape.title "body")
  | v => .error (.noEntry v.typeName "meta")

/-- The node's own position, by metadata of a node that is said to be of some kind. -/
def ownPosition (info : Metadata) (kind : Value) : Except Report Position :=
  (info.position (Report.plain kind)).mapError fun fault =>
    match fault with
    | .missing _ field => .missing kind (.text field.name)
    | fault => fault.report

/-- The content of an entry of metadata. That some closing token is recorded can be asked for like
an entry. -/
def entry (info : Metadata) (kind : Value) : Value → Except Report Metadata.Entry
  | .text name =>
    match Field.ofName? name with
    | some field =>
      match info.entry? field with
      | some content => .ok content
      | none => .error (.missing kind (.text name))
    | none =>
      if name = "has_closing" then .ok (.flag info.hasClosing)
      else .error (.noEntry "Metadata" name)
  | v => .error (.badType ("attribute name must be string, not " ++ Text.quoted v.typeName))

/-- How many workers a value asks for; null asks for no particular number. A part of a worker counts
as one. -/
def workerCount : Value → Except Report (Option Int)
  | .null => .ok none
  | .number (.whole n) => .ok (some n)
  | .bool b => .ok (some (if b then 1 else 0))
  | .number (.real x) => .ok (some (if 0.0 < x then 1 else 0))
  | v =>
    .error (.badType
      ("'<=' not supported between instances of " ++ Text.quoted v.typeName ++ " and 'int'"))

def spansOf (settings : Settings) (given : GivenOptions) (workers : Value) (values : List Value) :
    Except Report (List Span) :=
  match workerCount workers, given.resolve settings with
  | .ok count, _ => (SourceSpan.spansOf settings given count values).mapError BatchFault.report
  | .error _, .error rejection => .error (.rejected rejection)
  | .error report, .ok _ => .error report

end Operand

end SourceSpan
