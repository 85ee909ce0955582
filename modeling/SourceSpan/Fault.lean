import SourceSpan.Value

/-!
# Why a value has no span

A fault names a fact about the value: something in it has no layout rule or nothing to measure, an
entry that a rule reads is not recorded, the nesting is too deep, or a recorded coordinate lies
outside of any text. Two more faults are about the computation itself: a text could not be written,
or a rule looked for an item where there is none.

The access to metadata and to lists of items, through which the layout rules meet some of these, is
defined here as well.
-/

namespace SourceSpan

/-- A reason for which a span cannot be computed. -/
inductive Fault where
  /-- No layout rule applies to the value. -/
  | unrecognized (value : Value)
  /-- An alias has no segments. -/
  | emptyAlias
  /-- A block has neither a closing token nor an item. -/
  | emptyBlock
  /-- A bare sequence has no elements. -/
  | emptySequence
  /-- A node of some kind lacks an entry that its rule reads. -/
  | missing (kind : String) (field : Field)
  /-- A value of some kind lies deeper than is allowed. -/
  | tooDeep (maxDepth : Nat) (kind : String)
  /-- A line or a column lies below one. -/
  | outside (line column : Int)
  /-- A whole number has too many digits to be written. -/
  | longNumber
  /-- There is no item where a rule looks for one. -/
  | noItem

/-- An entry that a rule depends on. -/
def need {α : Type} (kind : String) (field : Field) : Option α → Except Fault α
  | some a => .ok a
  | none => .error (.missing kind field)

def itemAt {α : Type} (items : List α) (index : Nat) : Except Fault α :=
  match items[index]? with
  | some item => .ok item
  | none => .error .noItem

def lastItem {α : Type} (items : List α) : Except Fault α :=
  match items.getLast? with
  | some item => .ok item
  | none => .error .noItem

def Position.ofInts (line column : Int) : Except Fault Position :=
  match Position.ofInts? line column with
  | some p => .ok p
  | none => .error (.outside line column)

/-- Moves a position along its line by any number of columns. -/
def Position.shift (p : Position) (columns : Int) : Except Fault Position :=
  Position.ofInts p.line (p.column + columns)

namespace Metadata

def require (info : Metadata) (kind : String) (field : Field) : Except Fault Entry :=
  need kind field (info.entry? field)

/-- The node's own position; the line is asked for before the column. -/
def position (info : Metadata) (kind : String) : Except Fault Position := do
  let line ← need kind .line info.line
  let column ← need kind .column info.column
  Position.ofInts line column

def endWordWidth : Nat := 3

def bracketWidth : Nat := 1

/-- Just past the closing token. An `end` goes before a bracket; one of them has to be there. -/
def closingStop (info : Metadata) (kind : String) : Except Fault Position :=
  match info.endWord with
  | some p => .ok (p.advance endWordWidth)
  | none => do
    let p ← need kind .closing info.closing
    return p.advance bracketWidth

/-- From a given start to just past the closing token. -/
def closingSpan (info : Metadata) (kind : String) (start : Position) : Except Fault Span := do
  let stop ← info.closingStop kind
  return ⟨start, stop⟩

end Metadata

end SourceSpan
