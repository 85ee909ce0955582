/-!
# Environments

An environment gives texts to named variables. A variable may also be named without a text; then it
hides what was said about it before, but gives nothing.
-/

namespace SourceSpan

/-- Variables and their texts, in the order in which they were first set. -/
abbrev Environment := List (String × Option String)

namespace Environment

/-- A letter without its case. The sign for kelvins is a capital letter too. -/
def foldCase (c : Char) : Char :=
  if c.toNat = 0x212A then 'k' else c.toLower

/-- The text of a variable. Capital letters do not count, and of several variables with one name the
last one does. -/
def find? (environment : Environment) (name : String) : Option String :=
  (environment.reverse.find? fun entry =>
    entry.1.map foldCase == name.map foldCase).bind Prod.snd

/-- What is said about a variable with exactly this name. -/
def exactly? (environment : Environment) (name : String) : Option (Option String) :=
  environment.lookup name

/-- Sets a variable. One that is there keeps its place, a new one comes last. -/
def set (environment : Environment) (name : String) (value : Option String) : Environment :=
  if environment.any (·.1 == name) then
    environment.map fun entry => if entry.1 == name then (name, value) else entry
  else
    environment ++ [(name, value)]

end Environment

end SourceSpan
