import SourceSpan.Log.Logger

/-!
# Logged computations

A computation of a span makes at most one log entry. A span is told at the lowest level of urgency,
a range error as an error; a refused position is not logged. The entry knows the kind of the value
and, for a node, its recorded line and column.
-/

namespace SourceSpan.Analysis

open Log

def logger : Logger where
  name := "quoted_range.analyzers.range_analyzer"

def coordinate : Option Int → Value
  | none => .null
  | some n => .int n

def loggerFor (v : Value) : Logger :=
  let named := logger.withContext [("node_kind", .text v.kind)]
  match v with
  | .node n =>
    named.withContext [("line", coordinate n.info.line), ("column", coordinate n.info.column)]
  | _ => named

def pairText (p : Position) : String :=
  Printer.group [Numeral.showWhole p.line, Numeral.showWhole p.column]

/-- The lines that a computation for a value leaves. -/
def lines (journal : Journal) (v : Value) : Except Fault Span → Except Report (List Line)
  | .ok span =>
    journal.write (loggerFor v) Level.debug
      ("Computed " ++ v.kind ++ " range " ++ pairText span.start ++ "-" ++ pairText span.stop)
      [] .nothing
  | .error fault =>
    if fault.report.isRange then
      journal.writeError (loggerFor v) "Range computation failed" fault.report true []
    else
      .ok []

end SourceSpan.Analysis
