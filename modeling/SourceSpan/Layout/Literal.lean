import SourceSpan.Fault

/-!
# Literals and names

The span of a literal follows from its own position and its text. Text without a line ending runs on
in the line of its opening token. Text with line endings is measured by its last line, and the
column it ends in is counted from the column of the literal, the indentation of the text being
recorded nowhere.
-/

namespace SourceSpan

/-- The delimiters of literals that stand on lines of their own. -/
def isTriple (delimiter : String) : Bool :=
  delimiter == "\"\"\"" || delimiter == "'''"

namespace Layout

/-- Where a text that opens at `start` stops: `opening` is the width in front of it and counts only
in the line of the opening token, `closing` is the width behind it. -/
def textStop (start : Position) (text : String) (opening closing : Nat) : Position :=
  let breaks := Text.breakCount text.toList
  let width := (Text.lastLine text.toList).length
  if breaks = 0 then
    start.advance (opening + width + closing)
  else
    start.below start breaks (width + closing)

/-- A number is as wide as it is written. -/
def numberSpan (info : Metadata) : Except Fault Span := do
  let start ← info.position Shape.number.kind
  let token ← need Shape.number.kind .token info.token
  return ⟨start, start.advance token.length⟩

/-- An atom is a colon and a name, which may be quoted. -/
def atomSpan (info : Metadata) (value : String) : Except Fault Span := do
  let start ← info.position Shape.atom.kind
  match info.delimiter with
  | none => return ⟨start, textStop start value 1 0⟩
  | some delimiter => return ⟨start, textStop start value 2 delimiter.length⟩

/-- A string stands between two delimiters. With triple delimiters the text starts on the line after
the first one, and the last one stands on the line after the text, in the column of the first. -/
def stringSpan (info : Metadata) (value : String) : Except Fault Span := do
  let start ← info.position Shape.string.kind
  let delimiter ← need Shape.string.kind .delimiter info.delimiter
  if isTriple delimiter then
    return ⟨start, start.below start (Text.lines value.toList).length delimiter.length⟩
  else
    return ⟨start, textStop start value 1 delimiter.length⟩

def variableSpan (info : Metadata) (name : String) : Except Fault Span := do
  let start ← info.position Shape.variable.kind
  return ⟨start, start.advance name.length⟩

end Layout

end SourceSpan
