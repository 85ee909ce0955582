import SourceSpan.Options
import SourceSpan.Value.Printer

/-!
# Reports

A report is an error in the form in which it reaches the outside: a type, a text, and for some types
the facts that the text is made of. The facts are kept as they were given, whatever values they are.
Reports of range errors are the ones that a computation of spans itself raises.
-/

namespace SourceSpan

open Schema

inductive Report where
  /-- A range error of no particular type. -/
  | range (args : List Value)
  /-- A value has no layout rule or nothing to measure. -/
  | malformed (message kind : Value)
  /-- An entry that a rule reads is not recorded. -/
  | missing (kind field : Value)
  /-- A value lies too deep. -/
  | tooDeep (maxDepth kind : Value)
  /-- A record was refused. -/
  | rejected (rejection : Rejection)
  /-- A value is not usable. -/
  | badValue (args : List Value)
  /-- A value is of the wrong sort. -/
  | badType (message : String)
  /-- A key is not usable. -/
  | badKey (args : List Value)
  /-- A line does not exist. -/
  | noLine (line : Nat)
  /-- An item does not exist. -/
  | noItem
  /-- A thing with this title has no such entry. -/
  | noEntry (title name : String)
  /-- There are too many calls within each other. -/
  | exhausted

namespace Report

/-- A value inside of a sentence: texts stand without quotes. -/
def plain : Value → String
  | .text s => s
  | v => v.shown

/-- The text of an error that only has arguments. -/
def argsText : List Value → String
  | [] => ""
  | [v] => plain v
  | vs => Printer.group (vs.map Value.shown)

def typeName : Report → String
  | .range _ => "RangeError"
  | .malformed .. => "MalformedNode"
  | .missing .. => "MissingMetadata"
  | .tooDeep .. => "NestingTooDeep"
  | .rejected _ => "ValidationError"
  | .badValue _ => "ValueError"
  | .badType _ => "TypeError"
  | .badKey _ => "KeyError"
  | .noLine _ => "IndexError"
  | .noItem => "IndexError"
  | .noEntry .. => "AttributeError"
  | .exhausted => "RecursionError"

def message : Report → String
  | .range args => argsText args
  | .malformed message _ => plain message
  | .missing kind field =>
    plain kind ++ " node is missing required metadata field '" ++ plain field ++ "'"
  | .tooDeep maxDepth kind =>
    "Node nesting exceeds max_depth=" ++ plain maxDepth ++ " at " ++ plain kind ++ " node"
  | .rejected rejection => rejection.message
  | .badValue args => argsText args
  | .badType message => message
  | .badKey [key] => key.shown
  | .badKey args => argsText args
  | .noLine line =>
    if (line : Int) ≤ wordBound then "list index out of range"
    else "cannot fit 'int' into an index-sized integer"
  | .noItem => "tuple index out of range"
  | .noEntry title name => Text.quoted title ++ " object has no attribute " ++ Text.quoted name
  | .exhausted => "maximum recursion depth exceeded while encoding a JSON object"

def isRange : Report → Bool
  | .range _ => true
  | .malformed .. => true
  | .missing .. => true
  | .tooDeep .. => true
  | _ => false

/-- The kind in a report that is made without one. -/
def unknownKind : Value := .text "unknown"

/-- The arguments that a report of a type needs, and how many more it takes. -/
structure Signature where
  needed : List String
  spare : Nat

/-- The signatures of the types that do not take just any arguments. -/
def signature? : String → Option Signature
  | "MalformedNode" => some ⟨["message"], 1⟩
  | "MissingMetadata" => some ⟨["node_kind", "field"], 0⟩
  | "NestingTooDeep" => some ⟨["max_depth"], 1⟩
  | _ => none

/-- What is wrong with a number of arguments, if it is not the right one. The report itself counts
as an argument too. -/
def Signature.misfit? (signature : Signature) (typeName : String) (given : Nat) : Option String :=
  let least := signature.needed.length
  let count (n : Nat) : String := Numeral.showWhole n
  if given < least then
    let names := (signature.needed.drop given).map Text.quoted
    let noun := if names.length = 1 then " required positional argument: "
      else " required positional arguments: "
    some (typeName ++ ".__init__() missing " ++ count names.length ++ noun ++
      " and ".intercalate names)
  else if least + signature.spare < given then
    let taken := if signature.spare = 0 then count (least + 1)
      else "from " ++ count (least + 1) ++ " to " ++ count (least + signature.spare + 1)
    some (typeName ++ ".__init__() takes " ++ taken ++ " positional arguments but " ++
      count (given + 1) ++ " were given")
  else
    none

/-- Makes a report of a type by its name, from the right number of arguments. -/
def ofArguments? (typeName : String) (args : List Value) : Option Report :=
  match typeName, args with
  | "RangeError", args => some (.range args)
  | "MalformedNode", [message] => some (.malformed message unknownKind)
  | "MalformedNode", [message, kind] => some (.malformed message kind)
  | "MissingMetadata", [kind, field] => some (.missing kind field)
  | "NestingTooDeep", [maxDepth] => some (.tooDeep maxDepth unknownKind)
  | "NestingTooDeep", [maxDepth, kind] => some (.tooDeep maxDepth kind)
  | "ValueError", args => some (.badValue args)
  | "KeyError", args => some (.badKey args)
  | _, _ => none

/-- Makes a report of a type by its name, or reports what is wrong with the arguments. -/
def make (typeName : String) (args : List Value) : Except Report Report :=
  match (signature? typeName).bind (·.misfit? typeName args.length) with
  | some message => .error (.badType message)
  | none =>
    match ofArguments? typeName args with
    | some report => .ok report
    | none => .error (.badType ("no report " ++ Text.quoted typeName))

/-- What is wrong with asking a value for its hash. Only sequences and records on their own have
none, because they may change. -/
def unhashable? : Value → Option Report
  | .sequence _ => some (.badType "unhashable type: 'list'")
  | .record _ => some (.badType "unhashable type: 'dict'")
  | _ => none

/-- The name of a report's type with the name of its module, if it is not a built-in one. -/
def qualifiedName (r : Report) : String :=
  if r.isRange then "quoted_range.errors." ++ r.typeName else r.typeName

end Report

def coordinateIssues (line column : Int) : List Issue :=
  (if line < 1 then [⟨[.key "line"], .tooSmall⟩] else []) ++
    (if column < 1 then [⟨[.key "column"], .tooSmall⟩] else [])

/-- What is said of a number that has too many digits to be written. -/
def longNumberText : String :=
  "Exceeds the limit (" ++ Numeral.showWhole Burden.digitLimit ++
    " digits) for integer string conversion; use sys.set_int_max_str_digits() to increase the limit"

def Fault.report : Fault → Report
  | .unrecognized v =>
    .malformed (.text ("Unrecognized node shape: " ++ v.shown)) (.text v.kind)
  | .emptyAlias => .malformed (.text "Alias has no segments") (.text Shape.alias.kind)
  | .emptyBlock =>
    .malformed (.text "Block without closing token has no items") (.text Shape.block.kind)
  | .emptySequence =>
    .malformed (.text "Bare sequence is empty") (.text (Value.sequence []).kind)
  | .missing kind field => .missing (.text kind) (.text field.name)
  | .tooDeep maxDepth kind => .tooDeep (.int maxDepth) (.text kind)
  | .outside line column => .rejected ⟨"Position", coordinateIssues line column⟩
  | .longNumber => .badValue [.text longNumberText]
  | .noItem => .noItem

end SourceSpan
