import SourceSpan.Node

/-!
# Values

A span can be asked of anything: of a node, of a bare sequence of things, or of a plain value that
has no place in a syntax tree and is refused. Plain values are also what nodes, metadata, options
and settings are read from, and what the context of a log entry holds.
-/

namespace SourceSpan

/-- A node, a sequence of values, or a plain value. -/
inductive Value where
  | null
  | bool (b : Bool)
  | number (n : Numeral)
  | text (s : String)
  | sequence (items : List Value)
  /-- Named entries, in the order in which they were given. -/
  | record (entries : List (String × Value))
  | node (n : Node)

/-- Named values, in the order in which they were given. -/
abbrev Record := List (String × Value)

namespace Value

/-- What sort of thing a value is, in messages. -/
def kind : Value → String
  | .null => "NoneType"
  | .bool _ => "bool"
  | .number (.whole _) => "int"
  | .number (.real _) => "float"
  | .text _ => "str"
  | .sequence _ => "sequence"
  | .record _ => "dict"
  | .node n => n.kind

def int (n : Int) : Value :=
  .number (.whole n)

end Value

def Child.toValue : Child → Value
  | .node n => .node n
  | .group ns => .sequence (ns.map .node)

end SourceSpan
