import SourceSpan.Report

/-!
# Log levels

A level is a number and the more urgent an entry the greater it is. Some levels have names; two of
them have a second one that is understood but never written.
-/

namespace SourceSpan.Log

/-- How urgent a log entry is. -/
abbrev Level := Int

namespace Level

/-- The level of entries that are not given one. -/
def notSet : Level := 0

def debug : Level := 10

def warning : Level := 30

def error : Level := 40

/-- The names of levels; where a level has two names, the first is the one that is written. -/
def names : List (String × Level) :=
  [("NOTSET", notSet), ("DEBUG", debug), ("INFO", 20), ("WARNING", warning), ("WARN", 30),
    ("ERROR", error), ("CRITICAL", 50), ("FATAL", 50)]

def ofName? (name : String) : Option Level :=
  names.lookup name

def name (level : Level) : String :=
  match names.find? (·.2 == level) with
  | some (name, _) => name
  | none => "Level " ++ Numeral.showWhole level

/-- The level that a value stands for: a number itself, a text the level it names. -/
def ofValue : Value → Except Report Level
  | .number (.whole n) => .ok n
  | .bool b => .ok (if b then 1 else 0)
  | .text name =>
    match ofName? name with
    | some level => .ok level
    | none => .error (.badValue [.text ("Unknown level: " ++ Text.quoted name)])
  | v => .error (.badType ("Level not an integer or a valid string: " ++ v.shown))

end Level

end SourceSpan.Log
