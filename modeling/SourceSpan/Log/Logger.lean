import SourceSpan.Log.Line

/-!
# Loggers

A logger has a name and a context that goes into everything it says. Deriving a logger with more
context leaves the first one as it was.

What is said reaches a line only through the journal. Before it is set up the journal lets warnings
pass, but nothing writes them. Setting it up gives it one level, for what passes and for what is
written, and setting it up again replaces that level; a level that is not understood changes
nothing.
-/

namespace SourceSpan.Log

/-- Somebody who makes log entries. -/
structure Logger where
  name : String
  context : Record := []

/-- The name of the logger above all others, which can be asked for without a name. -/
def rootName : String := "root"

/-- What is wrong with a context that is handed to an operation: it must not use the name of one of
the operation's own arguments. -/
def clash? (operation : String) (arguments : List String) (context : Record) : Option Report :=
  (context.find? fun entry => entry.1 ∈ arguments).map fun entry =>
    .badType (operation ++ "() got multiple values for argument " ++ Text.quoted entry.1)

def Logger.make (name : String) (context : Record) : Except Report Logger :=
  match clash? "get_logger" ["name"] context with
  | some report => .error report
  | none => .ok ⟨if name = "" then rootName else name, context⟩

/-- The same logger with more context, which goes before what it had. -/
def Logger.withContext (logger : Logger) (context : Record) : Logger :=
  { logger with context := Record.overlay logger.context context }

/-- Derives a logger with more context, if the context can be handed over. -/
def Logger.derive (logger : Logger) (context : Record) : Except Report Logger :=
  match clash? "ContextLoggerAdapter.with_context" ["self"] context with
  | some report => .error report
  | none => .ok (logger.withContext context)

/-- Where log entries go. -/
structure Journal where
  /-- The least level that passes. -/
  level : Level := Level.warning
  /-- The least level that each writer writes; there is one writer after the first setup. -/
  writers : List Level := []
deriving DecidableEq

namespace Journal

/-- Sets the journal up for a level, or for the level in the settings if none is given. -/
def setup (settings : Settings) (level : Value) : Except Report Journal :=
  match level with
  | .null => do
    let level ← Level.ofValue (.text settings.logLevel)
    return ⟨level, [level]⟩
  | v => do
    let level ← Level.ofValue v
    return ⟨level, [level]⟩

/-- Entries of this level pass. A level that is not set never passes, whatever the journal's is. -/
def passes (journal : Journal) (level : Level) : Bool :=
  Level.notSet < level && journal.level ≤ level

/-- The lines that an entry leaves which passes and says so much. It must not use the name of a part
that every entry has, and one that uses the name by which it is asked for its message leaves none.
-/
def enter (journal : Journal) (logger : String) (level : Level) (message : String) (said : Record)
    (subject : Subject) (backend : Backend) : Except Report (List Line) :=
  match said.find? (fun entry => entry.1 ∈ partNames backend.tasks) with
  | some (name, _) =>
    .error (.badKey [.text ("Attempt to overwrite " ++ Text.quoted name ++ " in LogRecord")])
  | none =>
    if said.any (·.1 == tellingName) then
      .ok []
    else
      backend.deliver (Line.make level logger message said subject)
        (journal.writers.countP (· ≤ level))

/-- The lines that an entry leaves. The context of the logger goes before what the entry adds to it.
-/
def write (journal : Journal) (logger : Logger) (level : Level) (message : String)
    (extra : Record) (subject : Subject) (backend : optParam Backend .standard) :
    Except Report (List Line) :=
  if journal.passes level then
    journal.enter logger.name level message (Record.overlay extra logger.context) subject backend
  else
    .ok []

/-- The lines about an error, which is or is not being handled. -/
def writeError (journal : Journal) (logger : Logger) (message : String) (report : Report)
    (handled : Bool) (context : Record) (backend : optParam Backend .standard) :
    Except Report (List Line) :=
  match clash? "log_error_with_context" ["logger", "message", "error"] context with
  | some clash => .error clash
  | none =>
    journal.write logger Level.error (message ++ ": " ++ report.message) context
      (if handled then .error report else .noError) backend

end Journal

end SourceSpan.Log
