import SourceSpan.Fault

/-!
# Machines

A computation runs on a machine, and a machine has limits. It follows children only so many levels
down. A value that is refused is written into the text of its refusal, and not every value can be
written: writing goes down to the innermost parts of a value, and a number may have too many digits.

Where the limits lie differs from machine to machine, so every computation is told which one it runs
on. `Machine.standard` is the one that it runs on if it is not told.
-/

namespace SourceSpan

/-- What keeps a value from being written. -/
inductive Hurdle where
  /-- It is nested too deeply. -/
  | nesting
  /-- A whole number in it has too many digits. -/
  | digits
deriving DecidableEq

/-- The fault in which the refusal of a part of `root` ends that meets a hurdle. -/
def Hurdle.fault (maxDepth : Nat) (root : Value) : Hurdle → Fault
  | .nesting => .tooDeep maxDepth root.kind
  | .digits => .longNumber

structure Machine where
  /-- How many levels deep children can be followed. -/
  levels : Nat
  /-- What keeps a value that is refused in a computation for `root` from being written. -/
  hurdle? (root refused : Value) : Option Hurdle

namespace Machine

variable (machine : Machine) (maxDepth : Nat) (root : Value)

/-- How deep a computation goes that may go `maxDepth` levels deep. -/
def reach : Nat :=
  min maxDepth machine.levels

/-- The fault of a value `v` that lies too deep in `root`. A computation that the machine itself
stops is reported at the value that was asked for. -/
def depthFault (v : Value) : Fault :=
  if maxDepth ≤ machine.levels then .tooDeep maxDepth v.kind else .tooDeep maxDepth root.kind

/-- A fault as it leaves the machine. A refusal leaves it as what it is only if its text can be
written. -/
def raised : Fault → Fault
  | .unrecognized refused =>
    (machine.hurdle? root refused).elim (.unrecognized refused) (Hurdle.fault maxDepth root)
  | fault => fault

end Machine

/-! ### What writing a value takes -/

/-- How many calls lie on top of each other while something is written, and whether a number with
too many digits is met. -/
structure Burden where
  calls : Nat := 0
  isLong : Bool := false

namespace Burden

/-- Two things are written one after the other. -/
def join (a b : Burden) : Burden :=
  ⟨max a.calls b.calls, a.isLong || b.isLong⟩

/-- Something is written from within so many calls. -/
def under (calls : Nat) (inner : Burden) : Burden :=
  ⟨calls + inner.calls, inner.isLong⟩

/-- The most digits of a whole number that is written. -/
def digitLimit : Nat := 4300

def ofInt (n : Int) : Burden :=
  { isLong := Nat.pow 10 digitLimit ≤ n.natAbs }

def ofOption {α : Type} (burden : α → Burden) : Option α → Burden
  | none => {}
  | some a => burden a

def ofList {α : Type} (burden : α → Burden) (items : List α) : Burden :=
  items.foldl (fun sum item => sum.join (burden item)) {}

end Burden

open Burden

/-- How many calls writing a node takes, apart from its parts. -/
def nodeCalls : Nat := 5

def groupCalls : Nat := 1

def Position.burden (p : Position) : Burden :=
  (ofInt p.line).join (ofInt p.column)

def Comment.burden (c : Comment) : Burden :=
  (ofInt c.line).join (ofOption ofInt c.column)

def Metadata.burden (info : Metadata) : Burden :=
  ofList id [ofOption ofInt info.line, ofOption ofInt info.column,
    ofOption Position.burden info.closing, ofOption Position.burden info.endWord,
    ofOption Position.burden info.last, ofList Comment.burden info.comments]

def Numeral.burden : Numeral → Burden
  | .whole n => ofInt n
  | .real _ => {}

mutual

def Node.burden : Node → Burden
  | .number info value => under nodeCalls (info.burden.join value.burden)
  | .alias info segments => under nodeCalls (info.burden.join (segmentsBurden segments))
  | .block info items => under nodeCalls (info.burden.join (childrenBurden items))
  | .pair info key value => under nodeCalls (info.burden.join (key.burden.join value.burden))
  | .call info _ args => under nodeCalls (info.burden.join (childrenBurden args))
  | .dot info receiver _ => under nodeCalls (info.burden.join receiver.burden)
  | .remoteCall info dotInfo receiver _ args =>
    under nodeCalls (info.burden.join
      ((under nodeCalls (dotInfo.burden.join receiver.burden)).join (childrenBurden args)))
  | .access info subject key => under nodeCalls (info.burden.join (subject.burden.join key.burden))
  | .qualifiedTuple info receiver items =>
    under nodeCalls (info.burden.join (receiver.burden.join (nodesBurden items)))
  | .embedded info expr => under nodeCalls (info.burden.join expr.burden)
  | .interpolation info pieces => under nodeCalls (info.burden.join (piecesBurden pieces))
  | .interpolatedAtom info bodyInfo pieces =>
    under nodeCalls (info.burden.join
      (under nodeCalls (bodyInfo.burden.join (piecesBurden pieces))))
  | .bitstring info items => under nodeCalls (info.burden.join (nodesBurden items))
  | .sigil info _ bodyInfo pieces _ =>
    under nodeCalls (info.burden.join
      (under nodeCalls (bodyInfo.burden.join (piecesBurden pieces))))
  | n => under nodeCalls n.info.burden

def nodesBurden : List Node → Burden
  | [] => {}
  | n :: rest => (under groupCalls n.burden).join (nodesBurden rest)

def childrenBurden : List Child → Burden
  | [] => {}
  | .node n :: rest => (under groupCalls n.burden).join (childrenBurden rest)
  | .group ns :: rest => (under groupCalls (nodesBurden ns)).join (childrenBurden rest)

def segmentsBurden : List Segment → Burden
  | [] => {}
  | .name _ :: rest => segmentsBurden rest
  | .node n :: rest => (under groupCalls n.burden).join (segmentsBurden rest)

def piecesBurden : List Piece → Burden
  | [] => {}
  | .text _ :: rest => piecesBurden rest
  | .embedded info expr :: rest =>
    (under groupCalls (under nodeCalls (info.burden.join expr.burden))).join (piecesBurden rest)

end

mutual

def Value.burden : Value → Burden
  | .number n => n.burden
  | .sequence items => valuesBurden items
  | .record entries => entriesBurden entries
  | .node n => n.burden
  | _ => {}

def valuesBurden : List Value → Burden
  | [] => {}
  | v :: rest => (under groupCalls v.burden).join (valuesBurden rest)

def entriesBurden : List (String × Value) → Burden
  | [] => {}
  | (_, v) :: rest => (under groupCalls v.burden).join (entriesBurden rest)

end

namespace Machine

/-- The most calls that may lie on top of each other. -/
def callLimit : Nat := 1000

/-- What keeps a value from being written where so many calls may lie on top of each other. -/
def hurdleWithin? (calls : Nat) (v : Value) : Option Hurdle :=
  if calls < v.burden.calls then some .nesting
  else if v.burden.isLong then some .digits
  else none

/-- A machine that follows children so many levels down, and on which so many calls may lie on top
of each other while something is written. -/
def limited (levels calls : Nat) : Machine where
  levels := levels
  hurdle? _ refused := hurdleWithin? calls refused

/-- A machine that can make a thousand calls within each other. -/
def standard : Machine :=
  limited callLimit callLimit

end Machine

end SourceSpan
