import SourceSpan.Layout

/-!
# Widening a span over comments

The comments in front of a node are not part of its span. Widening moves the start to the first
comment, no further right than the node itself. The stop moves only if the last comment stands on
the node's own line, and then at least to the end of that comment. If the node has no recorded line,
the line on which the given span starts takes its place.
-/

namespace SourceSpan

/-- The comments in front of a value; only nodes have any. -/
def Value.comments : Value → List Comment
  | .node n => n.info.comments
  | _ => []

/-- The line recorded for a value; only nodes have one. -/
def Value.ownLine : Value → Option Int
  | .node n => n.info.line
  | _ => none

namespace Span

/-- Where a widened span stops, for a last comment and the node's line: past the comment, if that is
further along. -/
def widenedStop (span : Span) (last : Comment) (line : Int) : Position :=
  if last.line = line then
    span.stop.advance (last.stopColumn.toNat - span.stop.column)
  else
    span.stop

/-- The span of a value, widened over the comments in front of it. -/
def widen (span : Span) (v : Value) : Except Fault Span :=
  match v.comments with
  | [] => .ok span
  | first :: rest => do
    let last := rest.getLast?.getD first
    let start ← Position.ofInts first.line (min (span.start.column : Int) first.startColumn)
    let line := v.ownLine.getD span.start.line
    return ⟨start, span.widenedStop last line⟩

end Span

end SourceSpan
