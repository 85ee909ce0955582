/-!
# Operators

An operator application is a call with a reserved name. Two names are reserved twice: a plus and a
minus stand before one operand or between two, and the number of operands tells which it is.
-/

namespace SourceSpan.Operator

/-- How a call is laid out around its operands. -/
inductive Arrangement where
  /-- The name stands before the only operand. -/
  | unary
  /-- The name stands between two operands. -/
  | binary
  /-- The call is not an operator application. -/
  | neither
deriving DecidableEq

def unaryNames : List String :=
  ["!", "@", "^", "&", "not", "+", "-", "~~~"]

def binaryNames : List String :=
  ["+", "-", "*", "/", "**", "++", "--", "+++", "---", "..", "<>",
    "==", "!=", "===", "!==", "<", ">", "<=", ">=", "=~",
    "&&", "||", "and", "or", "in", "not in",
    "&&&", "|||", "^^^", "<<<", ">>>",
    "|>", "<<~", "~>>", "<~", "~>", "<~>", "<|>", "<-",
    "=", "|", "::", "when", "\\\\", "."]

def isUnary (name : String) : Bool :=
  name ∈ unaryNames

def isBinary (name : String) : Bool :=
  name ∈ binaryNames

/-- How a call of this name with this many operands is laid out. -/
def classify (name : String) (arity : Nat) : Arrangement :=
  if arity = 1 ∧ isUnary name then .unary
  else if arity = 2 ∧ isBinary name then .binary
  else .neither

end SourceSpan.Operator
