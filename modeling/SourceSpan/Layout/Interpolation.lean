import SourceSpan.Layout.Literal

/-!
# Interpolated literals

An interpolated literal is a list of pieces, plain text or an embedded expression. Its stop is found
by walking over the pieces from the left. Text moves forward by its own extent; after a line ending
the column is counted from the column of the literal. An embedded expression says where its closing
brace stands, so the walk goes on from there and forgets what came before.
-/

namespace SourceSpan

namespace Piece

def isEmbedded : Piece → Bool
  | .text _ => false
  | .embedded .. => true

end Piece

namespace Layout

def hasEmbedded (pieces : List Piece) : Bool :=
  pieces.any Piece.isEmbedded

/-- Where a walk that is at `here` goes on after a text, in a literal that opens at `start`. -/
def afterText (start here : Position) (text : String) : Position :=
  let breaks := Text.breakCount text.toList
  let width := (Text.lastLine text.toList).length
  if breaks = 0 then
    here.advance width
  else
    here.below start breaks width

/-- Walks over the pieces of a literal that opens at `start`, from `here`. -/
def walk (start : Position) : Position → List Piece → Except Fault Position
  | here, [] => .ok here
  | here, .text text :: rest => walk start (afterText start here text) rest
  | _, .embedded info _ :: rest => do
    let closing ← need Shape.embedded.kind .closing info.closing
    walk start (closing.advance 1) rest

/-- Just past the closing delimiter of an interpolated literal. A triple delimiter behind an
embedded expression stands at the start of its line. -/
def interpolationStop (pieces : List Piece) (delimiter : String) (start : Position) :
    Except Fault Position := do
  let here ← walk start start pieces
  if hasEmbedded pieces then
    if isTriple delimiter then
      return here.behind delimiter.length
    else
      return here.advance 1
  else
    return here.advance 2

/-- The delimiter that is assumed when none, or an empty one, is recorded. -/
def delimiterOf (info : Metadata) : String :=
  match info.delimiter with
  | none => "\""
  | some "" => "\""
  | some delimiter => delimiter

def tripleWidth : Nat := 3

/-- The width of a tilde and a sigil's letter. -/
def sigilOpeningWidth : Nat := 2

/-- Just past the last modifier of a sigil. A triple-quoted body without expressions holds no line
ending in front of its closing delimiter, which stands on the next line, in the column of the sigil.
-/
def sigilStop (info : Metadata) (pieces : List Piece) (modifiers : String) :
    Except Fault Position := do
  let start ← info.position Shape.sigil.kind
  let delimiter ← need Shape.sigil.kind .delimiter info.delimiter
  let bodyStop ← interpolationStop pieces delimiter start
  let stop := bodyStop.advance modifiers.length
  if isTriple delimiter && !hasEmbedded pieces then
    return stop.below start 1 tripleWidth
  else if isTriple delimiter || hasEmbedded pieces then
    return stop
  else
    return stop.advance sigilOpeningWidth

def interpolationSpan (info : Metadata) (pieces : List Piece) : Except Fault Span := do
  let start ← info.position Shape.interpolation.kind
  let stop ← interpolationStop pieces (delimiterOf info) start
  return ⟨start, stop⟩

/-- An interpolated atom opens at the position of its body and closes with its own delimiter. -/
def interpolatedAtomSpan (info bodyInfo : Metadata) (pieces : List Piece) : Except Fault Span := do
  let start ← bodyInfo.position Shape.interpolation.kind
  let stop ← interpolationStop pieces (delimiterOf info) start
  return ⟨start, stop⟩

def sigilSpan (info : Metadata) (pieces : List Piece) (modifiers : String) :
    Except Fault Span := do
  let start ← info.position Shape.sigil.kind
  let stop ← sigilStop info pieces modifiers
  return ⟨start, stop⟩

end Layout

end SourceSpan
