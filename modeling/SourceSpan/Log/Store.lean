import SourceSpan.Log.Logger

/-!
# Contexts in cells

A program holds the contexts of its loggers in cells, and so it does the records that it hands to
entries. Deriving a logger copies the context of the first one into a new cell. An entry, in
contrast, puts the context of its logger into the very cell that the entry is given.
-/

namespace SourceSpan.Log

abbrev Cells := List Record

/-- A logger as a program holds it, with the cell of its context. -/
structure Handle where
  name : String
  cell : Nat

namespace Handle

def logger (handle : Handle) (cells : Cells) : Logger :=
  ⟨handle.name, cells[handle.cell]?.getD []⟩

/-- Puts the entries of a record into a cell, one after the other. -/
def fill (cell : Nat) (context : Record) : StateM Cells Unit :=
  forM context fun entry => modify (·.modify cell (·.put entry.1 entry.2))

/-- Derives a logger in place. The context of the first one is copied into a new cell, and then the
further context is put into that cell. -/
def derive (parent : Handle) (context : Record) : StateM Cells Handle := do
  let cells ← get
  set (cells ++ [(parent.logger cells).context])
  fill cells.length context
  return ⟨parent.name, cells.length⟩

/-- Makes an entry in place, with what stands in a cell. If the entry passes, the context of the
logger is put into that cell first, and it stays there whatever becomes of the entry. -/
def log (handle : Handle) (journal : Journal) (level : Level) (message : String) (extra : Nat)
    (subject : Subject) (backend : Backend) : StateM Cells (Except Report (List Line)) := do
  if journal.passes level then
    fill extra (handle.logger (← get)).context
    let said := (← get)[extra]?.getD []
    return journal.enter handle.name level message said subject backend
  else
    return .ok []

end Handle

/-- One thing that a program does with the records that it holds. -/
inductive Move where
  /-- It holds another record: the context of a new logger, or something to be said. -/
  | hold (record : Record)
  | derive (parent : Handle) (context : Record)
  | log (handle : Handle) (level : Level) (message : String) (extra : Nat) (subject : Subject)

namespace Move

def perform (journal : Journal) (backend : Backend) : Move → StateM Cells Unit
  | .hold record => modify (· ++ [record])
  | .derive parent context => discard (parent.derive context)
  | .log handle level message extra subject =>
    discard (handle.log journal level message extra subject backend)

end Move

end SourceSpan.Log
