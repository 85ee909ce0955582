import SourceSpan.Metadata
import SourceSpan.Numeral.Basic

/-!
# Syntax tree nodes

A node is one of eighteen shapes, and each carries the metadata that the parser recorded for it.
Most children are nodes. The entries of a block and the arguments of a call may also be bare groups
of nodes, such as the keywords that end an argument list; an alias mixes names with nodes; an
interpolated literal mixes plain text with embedded expressions.

The callee of a qualified call and the body of an interpolated atom or sigil are always of one
shape, so their parts are held directly by the node around them.
-/

namespace SourceSpan

mutual

/-- A node of a syntax tree. -/
inductive Node where
  /-- A node of no particular shape. -/
  | bare (info : Metadata)
  /-- A number; its written form is in the metadata. -/
  | number (info : Metadata) (value : Numeral)
  /-- An atom, without its colon. -/
  | atom (info : Metadata) (value : String)
  /-- A string without interpolation. -/
  | string (info : Metadata) (value : String)
  | variable (info : Metadata) (name : String)
  /-- A dotted module name. -/
  | alias (info : Metadata) (segments : List Segment)
  /-- Parentheses, a list, a tuple or the body of a definition. -/
  | block (info : Metadata) (items : List Child)
  /-- One entry of a keyword list. -/
  | pair (info : Metadata) (key value : Node)
  /-- An unqualified call; operators and clauses are calls too. -/
  | call (info : Metadata) (name : String) (args : List Child)
  /-- The callee of a qualified call, on its own; an anonymous call has no name. -/
  | dot (info : Metadata) (receiver : Node) (name : Option String)
  /-- A qualified call, with the metadata, receiver and name of its callee. -/
  | remoteCall (info dotInfo : Metadata) (receiver : Node) (name : Option String)
      (args : List Child)
  /-- An indexed value. -/
  | access (info : Metadata) (subject key : Node)
  /-- Several aliases under one name. -/
  | qualifiedTuple (info : Metadata) (receiver : Node) (items : List Node)
  /-- An embedded expression, on its own. -/
  | embedded (info : Metadata) (expr : Node)
  /-- A literal made of text and embedded expressions. -/
  | interpolation (info : Metadata) (pieces : List Piece)
  /-- A quoted atom made of text and embedded expressions, with the metadata of its body. -/
  | interpolatedAtom (info bodyInfo : Metadata) (pieces : List Piece)
  | bitstring (info : Metadata) (items : List Node)
  /-- A sigil, with the metadata and the pieces of its body. -/
  | sigil (info : Metadata) (letter : String) (bodyInfo : Metadata) (pieces : List Piece)
      (modifiers : String)

/-- An entry of a block or an argument of a call. -/
inductive Child where
  | node (n : Node)
  | group (ns : List Node)

/-- One part of a dotted name. -/
inductive Segment where
  | name (text : String)
  | node (n : Node)

/-- One part of an interpolated literal. -/
inductive Piece where
  | text (text : String)
  | embedded (info : Metadata) (expr : Node)

end

/-- The shapes of a node. -/
inductive Shape where
  | bare
  | number
  | atom
  | string
  | variable
  | alias
  | block
  | pair
  | call
  | dot
  | remoteCall
  | access
  | qualifiedTuple
  | embedded
  | interpolation
  | interpolatedAtom
  | bitstring
  | sigil
deriving DecidableEq

namespace Shape

def all : List Shape :=
  [.bare, .number, .atom, .string, .variable, .alias, .block, .pair, .call, .dot, .remoteCall,
    .access, .qualifiedTuple, .embedded, .interpolation, .interpolatedAtom, .bitstring, .sigil]

def kind : Shape → String
  | .bare => "node"
  | .number => "number"
  | .atom => "atom"
  | .string => "string"
  | .variable => "variable"
  | .alias => "alias"
  | .block => "block"
  | .pair => "pair"
  | .call => "call"
  | .dot => "dot"
  | .remoteCall => "remote_call"
  | .access => "access"
  | .qualifiedTuple => "qualified_tuple"
  | .embedded => "interpolated_expr"
  | .interpolation => "interpolation"
  | .interpolatedAtom => "interpolated_atom"
  | .bitstring => "bitstring"
  | .sigil => "sigil"

/-- The title a node of this shape is shown under. -/
def title : Shape → String
  | .bare => "Node"
  | .number => "NumberLiteral"
  | .atom => "AtomLiteral"
  | .string => "StringLiteral"
  | .variable => "Variable"
  | .alias => "Alias"
  | .block => "Block"
  | .pair => "KeywordPair"
  | .call => "Call"
  | .dot => "Dot"
  | .remoteCall => "RemoteCall"
  | .access => "AccessCall"
  | .qualifiedTuple => "QualifiedTuple"
  | .embedded => "InterpolatedExpr"
  | .interpolation => "Interpolation"
  | .interpolatedAtom => "InterpolatedAtom"
  | .bitstring => "Bitstring"
  | .sigil => "Sigil"

def ofKind? (kind : String) : Option Shape :=
  all.find? (·.kind == kind)

theorem mem_all (shape : Shape) : shape ∈ all := by
  cases shape <;> simp [all]

end Shape

namespace Node

def shape : Node → Shape
  | .bare .. => .bare
  | .number .. => .number
  | .atom .. => .atom
  | .string .. => .string
  | .variable .. => .variable
  | .alias .. => .alias
  | .block .. => .block
  | .pair .. => .pair
  | .call .. => .call
  | .dot .. => .dot
  | .remoteCall .. => .remoteCall
  | .access .. => .access
  | .qualifiedTuple .. => .qualifiedTuple
  | .embedded .. => .embedded
  | .interpolation .. => .interpolation
  | .interpolatedAtom .. => .interpolatedAtom
  | .bitstring .. => .bitstring
  | .sigil .. => .sigil

def info : Node → Metadata
  | .bare info => info
  | .number info _ => info
  | .atom info _ => info
  | .string info _ => info
  | .variable info _ => info
  | .alias info _ => info
  | .block info _ => info
  | .pair info .. => info
  | .call info .. => info
  | .dot info .. => info
  | .remoteCall info .. => info
  | .access info .. => info
  | .qualifiedTuple info .. => info
  | .embedded info _ => info
  | .interpolation info _ => info
  | .interpolatedAtom info .. => info
  | .bitstring info _ => info
  | .sigil info .. => info

def kind (n : Node) : String :=
  n.shape.kind

end Node

end SourceSpan
