import SourceSpan.Value

/-!
# Checking values

What comes from outside is a plain value and is checked entry by entry. A check accepts a value,
possibly after converting it, or refuses it with all the issues it has: two checks side by side join
their issues, first one first. An issue says what is wrong and where, as a path from the outermost
record inwards.
-/

namespace SourceSpan.Schema

/-- One step of a path into a value. -/
inductive Step where
  /-- Into an entry, or into one of several alternatives. -/
  | key (name : String)
  /-- Into an element. -/
  | index (i : Nat)
deriving DecidableEq

/-- What is wrong with a value. -/
inductive Cause where
  | missing
  | notWhole
  | unreadableWhole
  /-- Too large for the conversion that it needs. -/
  | oversizedWhole
  | fractional
  | notFinite
  | tooSmall
  | notBool
  | unreadableBool
  | notText
  | notSequence
  | notRecord
  | notReal
  | unreadableReal
deriving DecidableEq

def Cause.name : Cause → String
  | .missing => "missing"
  | .notWhole => "int_type"
  | .unreadableWhole => "int_parsing"
  | .oversizedWhole => "int_parsing_size"
  | .fractional => "int_from_float"
  | .notFinite => "finite_number"
  | .tooSmall => "greater_than_equal"
  | .notBool => "bool_type"
  | .unreadableBool => "bool_parsing"
  | .notText => "string_type"
  | .notSequence => "tuple_type"
  | .notRecord => "model_type"
  | .notReal => "float_type"
  | .unreadableReal => "float_parsing"

/-- One thing that is wrong, and where. -/
structure Issue where
  path : List Step
  cause : Cause
deriving DecidableEq

/-- The same issue, seen from one step further out. -/
def Issue.under (step : Step) (issue : Issue) : Issue :=
  { issue with path := step :: issue.path }

inductive Checked (α : Type) where
  | accepted (value : α)
  | refused (issues : List Issue)

variable {α β : Type}

namespace Checked

def map (f : α → β) : Checked α → Checked β
  | .accepted a => .accepted (f a)
  | .refused issues => .refused issues

/-- Two checks side by side; both are made and their issues are joined. -/
def both : Checked (α → β) → Checked α → Checked β
  | .accepted f, .accepted a => .accepted (f a)
  | .accepted _, .refused issues => .refused issues
  | .refused issues, .accepted _ => .refused issues
  | .refused issues, .refused more => .refused (issues ++ more)

instance : Applicative Checked where
  map := Checked.map
  pure := .accepted
  seq f a := f.both (a ())

def refuse (cause : Cause) : Checked α :=
  .refused [⟨[], cause⟩]

/-- The check was made one step inwards. -/
def under (step : Step) : Checked α → Checked α
  | .accepted a => .accepted a
  | .refused issues => .refused (issues.map (Issue.under step))

end Checked

abbrev Check (α : Type) := Value → Checked α

def required (name : String) (check : Check α) (record : Record) : Checked α :=
  match record.lookup name with
  | some v => (check v).under (.key name)
  | none => (Checked.refuse .missing).under (.key name)

def optional (name : String) (check : Check α) (default : α) (record : Record) : Checked α :=
  match record.lookup name with
  | some v => (check v).under (.key name)
  | none => .accepted default

/-- Null, or what another check accepts. -/
def orNull (check : Check α) : Check (Option α)
  | .null => .accepted none
  | v => (check v).map some

def eachFrom (check : Check α) (i : Nat) : List Value → Checked (List α)
  | [] => .accepted []
  | v :: rest => List.cons <$> (check v).under (.index i) <*> eachFrom check (i + 1) rest

/-- A sequence of things that another check accepts. -/
def each (check : Check α) : Check (List α)
  | .sequence items => eachFrom check 0 items
  | _ => .refuse .notSequence

/-- The first of two named alternatives that accepts a value; if none does, the issues of both. -/
def either (firstName : String) (first : Check α) (secondName : String) (second : Check α) :
    Check α := fun v =>
  match first v with
  | .accepted a => .accepted a
  | .refused issues =>
    match second v with
    | .accepted a => .accepted a
    | .refused more =>
      .refused (issues.map (Issue.under (.key firstName)) ++
        more.map (Issue.under (.key secondName)))

/-- What was wrong with the record of a titled thing. -/
structure Rejection where
  title : String
  issues : List Issue
deriving DecidableEq

/-- Counts the issues. -/
def Rejection.message (r : Rejection) : String :=
  Numeral.showWhole r.issues.length ++
    (if r.issues.length = 1 then " validation error for " else " validation errors for ") ++ r.title

/-- Ends the check of a titled thing. -/
def Checked.result (title : String) : Checked α → Except Rejection α
  | .accepted a => .ok a
  | .refused issues => .error ⟨title, issues⟩

end SourceSpan.Schema
