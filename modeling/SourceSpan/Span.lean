import SourceSpan.Position
import SourceSpan.Text.Lines

/-!
# Spans of a source text

A span runs from its start up to, and without, its stop. Nothing orders the two: a span whose stop
lies before its start covers no text.

A position finds its character through the offset of its line. A column past the end of its line
runs on into what follows, and past the end of the text it stays at the end; only a line that the
text does not have gives no offset.
-/

namespace SourceSpan

/-- A half-open stretch of text. -/
structure Span where
  start : Position
  stop : Position
deriving DecidableEq

/-- How many characters of `text` stand before a position, if the text has its line. -/
def Position.offset? (p : Position) (text : List Char) : Option Nat :=
  (Text.lineOffsets text)[p.line - 1]?.map (· + (p.column - 1))

namespace Span

/-- The inner span starts no earlier and stops no later than the outer one. -/
def Contains (outer inner : Span) : Prop :=
  outer.start ≤ inner.start ∧ inner.stop ≤ outer.stop

instance (outer inner : Span) : Decidable (outer.Contains inner) :=
  inferInstanceAs (Decidable (_ ∧ _))

/-- The text that a span covers, if the text has both of its lines. -/
def slice? (span : Span) (text : List Char) : Option (List Char) := do
  let first ← span.start.offset? text
  let last ← span.stop.offset? text
  return (text.drop first).take (last - first)

/-- The first of a span's two lines that a text does not have. -/
def missingLine? (span : Span) (text : List Char) : Option Nat :=
  [span.start.line, span.stop.line].find? fun line => (Text.lineOffsets text).length < line

end Span

end SourceSpan
