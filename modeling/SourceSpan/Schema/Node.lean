import SourceSpan.Schema.Scalar

/-!
# Positions, metadata and nodes

Records become positions, comments, metadata and nodes. Entries are checked in the order in which
they are declared, unknown entries are passed over, and an entry that is null is not one that is
left out.

Where a node is expected a record is taken for a node of no particular shape; where a callee, an
interpolated literal or an embedded expression is expected, a record is taken for just that.
-/

namespace SourceSpan.Schema

def positionEntries (record : Record) : Checked Position :=
  (fun line column => ⟨line.val, column.val, line.pos, column.pos⟩)
    <$> required "line" ordinal record
    <*> required "column" ordinal record

def position : Check Position
  | .record entries => positionEntries entries
  | _ => .refuse .notRecord

def commentEntries (record : Record) : Checked Comment :=
  (fun line column text => ⟨line.val, column, text, line.pos⟩)
    <$> required "line" ordinal record
    <*> optional "column" (orNull whole) none record
    <*> required "text" text record

def comment : Check Comment
  | .record entries => commentEntries entries
  | _ => .refuse .notRecord

def metadataEntries (record : Record) : Checked Metadata :=
  Metadata.mk
    <$> optional Field.line.name (orNull whole) none record
    <*> optional Field.column.name (orNull whole) none record
    <*> optional Field.closing.name (orNull position) none record
    <*> optional Field.endWord.name (orNull position) none record
    <*> optional Field.delimiter.name (orNull text) none record
    <*> optional Field.last.name (orNull position) none record
    <*> optional Field.noParens.name truth false record
    <*> optional Field.token.name (orNull text) none record
    <*> optional Field.comments.name (each comment) [] record

def metadata : Check Metadata
  | .record entries => metadataEntries entries
  | _ => .refuse .notRecord

/-- The metadata that are given for a node. -/
inductive GivenInfo where
  | absent
  /-- Metadata that have been checked on their own. -/
  | checked (info : Metadata)
  | unchecked (v : Value)

/-- The metadata among the entries of a record. -/
def GivenInfo.ofRecord (record : Record) : GivenInfo :=
  match record.lookup "meta" with
  | none => .absent
  | some v => .unchecked v

/-- The metadata of a node; without any, nothing is recorded. -/
def GivenInfo.check : GivenInfo → Checked Metadata
  | .absent => .accepted {}
  | .checked info => .accepted info
  | .unchecked v => (metadata v).under (.key "meta")

def node : Check Node
  | .node n => .accepted n
  | .record entries => .bare <$> (GivenInfo.ofRecord entries).check
  | _ => .refuse .notRecord

/-- The parts of a callee: metadata, receiver and name. -/
structure Callee where
  info : Metadata
  receiver : Node
  name : Option String

def calleeEntries (given : GivenInfo) (record : Record) : Checked Callee :=
  Callee.mk
    <$> given.check
    <*> required "receiver" node record
    <*> optional "name" (orNull text) none record

def callee : Check Callee
  | .node (.dot info receiver name) => .accepted ⟨info, receiver, name⟩
  | .record entries => calleeEntries (.ofRecord entries) entries
  | _ => .refuse .notRecord

def embeddedEntries (given : GivenInfo) (record : Record) : Checked (Metadata × Node) :=
  Prod.mk <$> given.check <*> required "expr" node record

def embeddedPiece : Check Piece
  | .node (.embedded info expr) => .accepted (.embedded info expr)
  | .record entries =>
    (fun (info, expr) => .embedded info expr) <$> embeddedEntries (.ofRecord entries) entries
  | _ => .refuse .notRecord

def piece : Check Piece :=
  either "str" (fun v => .text <$> text v) "InterpolatedExpr" embeddedPiece

def literalEntries (given : GivenInfo) (record : Record) : Checked (Metadata × List Piece) :=
  Prod.mk <$> given.check <*> optional "segments" (each piece) [] record

def literal : Check (Metadata × List Piece)
  | .node (.interpolation info pieces) => .accepted (info, pieces)
  | .record entries => literalEntries (.ofRecord entries) entries
  | _ => .refuse .notRecord

def segment : Check Segment :=
  either "str" (fun v => .name <$> text v) "Node" (fun v => .node <$> node v)

def child : Check Child :=
  either "Node" (fun v => .node <$> node v) "tuple[Node, ...]" (fun v => .group <$> each node v)

def nodeEntries (shape : Shape) (given : GivenInfo) (record : Record) : Checked Node :=
  match shape with
  | .bare => .bare <$> given.check
  | .number => .number <$> given.check <*> required "value" number record
  | .atom => .atom <$> given.check <*> required "value" text record
  | .string => .string <$> given.check <*> required "value" text record
  | .variable => .variable <$> given.check <*> required "name" text record
  | .alias => .alias <$> given.check <*> optional "segments" (each segment) [] record
  | .block => .block <$> given.check <*> optional "items" (each child) [] record
  | .pair => .pair <$> given.check <*> required "key" node record <*> required "value" node record
  | .call =>
    .call <$> given.check <*> required "name" text record <*> optional "args" (each child) [] record
  | .dot => (fun c => .dot c.info c.receiver c.name) <$> calleeEntries given record
  | .remoteCall =>
    (fun info c args => .remoteCall info c.info c.receiver c.name args)
      <$> given.check
      <*> required "dot" callee record
      <*> optional "args" (each child) [] record
  | .access =>
    .access <$> given.check <*> required "subject" node record <*> required "key" node record
  | .qualifiedTuple =>
    .qualifiedTuple
      <$> given.check
      <*> required "receiver" node record
      <*> optional "items" (each node) [] record
  | .embedded => (fun (info, expr) => .embedded info expr) <$> embeddedEntries given record
  | .interpolation =>
    (fun (info, pieces) => .interpolation info pieces) <$> literalEntries given record
  | .interpolatedAtom =>
    (fun info (bodyInfo, pieces) => .interpolatedAtom info bodyInfo pieces)
      <$> given.check
      <*> required "body" literal record
  | .bitstring => .bitstring <$> given.check <*> optional "items" (each node) [] record
  | .sigil =>
    (fun info letter (bodyInfo, pieces) modifiers => .sigil info letter bodyInfo pieces modifiers)
      <$> given.check
      <*> required "letter" text record
      <*> required "body" literal record
      <*> optional "modifiers" text "" record

def makePosition (record : Record) : Except Rejection Position :=
  (positionEntries record).result "Position"

def makeComment (record : Record) : Except Rejection Comment :=
  (commentEntries record).result "Comment"

def makeMetadata (record : Record) : Except Rejection Metadata :=
  (metadataEntries record).result "Metadata"

def makeNode (shape : Shape) (given : GivenInfo) (record : Record) : Except Rejection Node :=
  (nodeEntries shape given record).result shape.title

/-- The names of the entries of a shape, in the order in which they are checked. -/
def entryNames : Shape → List String
  | .bare => []
  | .number => ["value"]
  | .atom => ["value"]
  | .string => ["value"]
  | .variable => ["name"]
  | .alias => ["segments"]
  | .block => ["items"]
  | .pair => ["key", "value"]
  | .call => ["name", "args"]
  | .dot => ["receiver", "name"]
  | .remoteCall => ["dot", "args"]
  | .access => ["subject", "key"]
  | .qualifiedTuple => ["receiver", "items"]
  | .embedded => ["expr"]
  | .interpolation => ["segments"]
  | .interpolatedAtom => ["body"]
  | .bitstring => ["items"]
  | .sigil => ["letter", "body", "modifiers"]

end SourceSpan.Schema
