import SourceSpan.Settings.Environment
import SourceSpan.Text.Blank
import SourceSpan.Text.Lines

/-!
# Files of assignments

An environment can be kept in a file with one assignment a line. A line holds a name, an equals sign
and a value; a remark behind a hash may follow or stand alone, and a word that some shells want may
stand in front. A line that cannot be read is passed over.

A bare value runs to the end of its line and holds no remark: a hash counts only behind a space. A
value between quotes may hold line feeds and escapes. In both kinds of value a name in braces behind
a dollar sign is a reference: the value of that variable in the file so far, or else in the
surrounding environment, or else a default that stands in the braces, or nothing.
-/

namespace SourceSpan

namespace Assignments

/-- A space, a line break or one of the four separators of old tapes. -/
def isSpace (c : Char) : Bool :=
  Text.isBlank c || (0x1C ≤ c.toNat && c.toNat ≤ 0x1F)

def isGap (c : Char) : Bool :=
  isSpace c && c != '\n'

/-- Reads the front of a text, or gives back the text at which the reading failed. -/
abbrev Reader (α : Type) := List Char → Except (List Char) (α × List Char)

/-- The line without a word that some shells want in front of an assignment. -/
def dropExport (text : List Char) : List Char :=
  match text with
  | 'e' :: 'x' :: 'p' :: 'o' :: 'r' :: 't' :: c :: rest =>
    if isGap c then rest.dropWhile isGap else text
  | _ => text

def inName (c : Char) : Bool :=
  c != '=' && c != '#' && !isSpace c

/-- Reads a name, which may stand between single quotes. A remark has no name. -/
def readName : Reader (Option (List Char))
  | '#' :: rest => .ok (none, '#' :: rest)
  | '\'' :: rest =>
    match rest.takeWhile (· != '\''), rest.dropWhile (· != '\'') with
    | [], _ => .error ('\'' :: rest)
    | _, [] => .error ('\'' :: rest)
    | name, _ :: behind => .ok (some name, behind)
  | text =>
    match text.takeWhile inName with
    | [] => .error text
    | name => .ok (some name, text.dropWhile inName)

/-- Splits a text at the quote that closes it. A backslash keeps a quote from closing, unless no
other quote follows that could. -/
def splitQuoted? (quote : Char) : List Char → Option (List Char × List Char)
  | [] => none
  | '\\' :: c :: rest =>
    if c = quote then
      match splitQuoted? quote rest with
      | some (inside, behind) => some ('\\' :: c :: inside, behind)
      | none => some (['\\'], rest)
    else
      (splitQuoted? quote (c :: rest)).map fun (inside, behind) => ('\\' :: inside, behind)
  | c :: rest =>
    if c = quote then some ([], rest)
    else (splitQuoted? quote rest).map fun (inside, behind) => (c :: inside, behind)

/-- What a letter behind a backslash stands for, by the kind of quotes. -/
def escapes : Char → List (Char × Char)
  | '"' => [('\\', '\\'), ('\'', '\''), ('"', '"'), ('a', '\x07'), ('b', '\x08'), ('f', '\x0c'),
      ('n', '\n'), ('r', '\r'), ('t', '\t'), ('v', '\x0b')]
  | _ => [('\\', '\\'), ('\'', '\'')]

/-- Puts in what escapes stand for; a backslash in front of any other letter is itself. -/
def unescape (table : List (Char × Char)) : List Char → List Char
  | [] => []
  | '\\' :: c :: rest =>
    match table.lookup c with
    | some meant => meant :: unescape table rest
    | none => '\\' :: unescape table (c :: rest)
  | c :: rest => c :: unescape table rest

/-- A value without the remark behind it. -/
def dropRemark : List Char → List Char
  | [] => []
  | c :: rest =>
    if isSpace c && (rest.dropWhile isSpace).head? == some '#' then []
    else c :: dropRemark rest

/-- A value without quotes, from the rest of its line. -/
def bareValue (line : List Char) : List Char :=
  ((dropRemark line).reverse.dropWhile isSpace).reverse

def readValue : Reader (List Char)
  | [] => .ok ([], [])
  | c :: rest =>
    if c = '"' ∨ c = '\'' then
      match splitQuoted? c rest with
      | some (inside, behind) => .ok (unescape (escapes c) inside, behind)
      | none => .error (c :: rest)
    else
      .ok (bareValue ((c :: rest).takeWhile (· != '\n')), (c :: rest).dropWhile (· != '\n'))

/-- What follows a remark or anything else that does not count in a line. -/
def dropLine (text : List Char) : List Char :=
  (text.dropWhile (· != '\n')).drop 1

/-- Reads the end of a line, with a remark in front of it. -/
def readLineEnd : Reader Unit := fun text =>
  match text.dropWhile isGap with
  | [] => .ok ((), [])
  | '\n' :: rest => .ok ((), rest)
  | '#' :: rest => .ok ((), dropLine rest)
  | rest => .error rest

/-- A name and the value that is assigned to it, if any is. -/
structure Assignment where
  name : String
  value : Option (List Char)

def readAssignment : Reader (Option Assignment) := fun text => do
  let (name, rest) ← readName (dropExport text)
  let (value, rest) ←
    match rest.dropWhile isGap with
    | '=' :: rest => do
      let (value, rest) ← readValue (rest.dropWhile isGap)
      pure (some value, rest)
    | rest => pure (none, rest)
  let (_, rest) ← readLineEnd rest
  return (name.map fun name => ⟨String.ofList name, value⟩, rest)

/-- Reads at most `lines` assignments and remarks. -/
def readUpTo : Nat → List Char → List Assignment
  | 0, _ => []
  | lines + 1, text =>
    match text.dropWhile isSpace with
    | [] => []
    | start =>
      match readAssignment start with
      | .ok (some assignment, rest) => assignment :: readUpTo lines rest
      | .ok (none, rest) => readUpTo lines rest
      | .error rest => readUpTo lines (dropLine rest)

/-- The assignments in a text. A line takes at least one character, so their number is bounded. -/
def read (text : List Char) : List Assignment :=
  let lines := List.intercalate ['\n'] (Text.lines text)
  readUpTo lines.length lines

structure Reference where
  name : List Char
  default : List Char
  /-- The number of characters that the reference is written with. -/
  width : Nat

def reference? : List Char → Option Reference
  | '$' :: '\x7b' :: rest =>
    let name := rest.takeWhile fun c => c != '\x7d' && c != ':'
    match rest.drop name.length with
    | '\x7d' :: _ => some ⟨name, [], name.length + 3⟩
    | ':' :: '-' :: rest =>
      let default := rest.takeWhile (· != '\x7d')
      if default.length < rest.length then some ⟨name, default, name.length + default.length + 5⟩
      else none
    | _ => none
  | _ => none

/-- Puts the values of variables in the places of their references, behind `skip` characters that
belong to a reference already. -/
def expand (lookup : String → Option (Option String)) (skip : Nat) : List Char → List Char
  | [] => []
  | c :: rest =>
    match skip with
    | skip + 1 => expand lookup skip rest
    | 0 =>
      match reference? (c :: rest) with
      | some reference =>
        let value :=
          match lookup (String.ofList reference.name) with
          | some value => (value.getD "").toList
          | none => reference.default
        value ++ expand lookup (reference.width - 1) rest
      | none => c :: expand lookup 0 rest

def assign (surrounding file : Environment) (assignment : Assignment) : Environment :=
  let lookup (name : String) : Option (Option String) :=
    match file.exactly? name with
    | some value => some value
    | none => surrounding.exactly? name
  file.set assignment.name
    (assignment.value.map fun value => String.ofList (expand lookup 0 value))

end Assignments

/-- The environment that a file of assignments gives inside of another one. -/
def Environment.ofFile (surrounding : Environment) (text : String) : Environment :=
  (Assignments.read text.toList).foldl (Assignments.assign surrounding) []

end SourceSpan
