import SourceSpan.Log.Level

/-!
# Log lines

A log line is one record. It tells the level, the logger and the message, then the facts about the
node at hand that are known, in a fixed order, then everything else that was said as its context,
and last the error that is being handled, if the entry is about one. When and where the entry was
made stands in front and at the end of the line and is not modelled.
-/

namespace SourceSpan

namespace Record

/-- Gives a name a value. A name that is there keeps its place, a new one comes last. -/
def put (record : Record) (name : String) (v : Value) : Record :=
  if record.any (·.1 == name) then
    record.map fun entry => if entry.1 == name then (name, v) else entry
  else
    record ++ [(name, v)]

def overlay (record layer : Record) : Record :=
  layer.foldl (fun record entry => record.put entry.1 entry.2) record

end Record

namespace Log

/-- The facts about a node that stand at the top of a line, in this order. -/
def nodeFacts : List String :=
  ["node_kind", "line", "column", "depth"]

/-- The name under which an entry tells the task that it is made in. -/
def taskName : String := "taskName"

/-- The names of the parts that every log entry has. An entry whose context gives one is refused.
Not everywhere does an entry tell its task. -/
def partNames (tasks : Bool) : List String :=
  ["message", "asctime", "name", "msg", "args", "levelname", "levelno", "pathname", "filename",
    "module", "exc_info", "exc_text", "stack_info", "lineno", "funcName", "created", "msecs",
    "thread", "threadName", "processName", "process", "relativeCreated"] ++
    if tasks then [taskName] else []

/-- The name by which an entry is asked for its message. An entry whose context gives it is not
refused, but it can no longer be asked, and so it is not written. -/
def tellingName : String := "getMessage"

/-- The names that a log entry uses itself, so that its context must not. -/
def reservedNames (tasks : Bool) : List String :=
  tellingName :: partNames tasks

/-- The names that a line leaves out of its context, wherever it is written. -/
def heldBack : List String :=
  ["name", "msg", "args", "created", "filename", "funcName", "levelname", "levelno", "lineno",
    "module", "msecs", "message", "pathname", "process", "processName", "relativeCreated", "thread",
    "threadName", "exc_info", "exc_text", "stack_info", taskName]

/-- The error that an entry is about. -/
inductive Subject where
  /-- The entry is not about an error. -/
  | nothing
  /-- The entry is about an error, but none is being handled. -/
  | noError
  | error (report : Report)

structure ErrorBlock where
  typeName : Option String
  message : Option String
  /-- The last line of the trace. -/
  traceEnd : String

/-- The last line of a trace, empty lines at its end not counted. Only line feeds end the lines of a
trace. -/
def lastTraceLine (trace : String) : String :=
  let written := trace.toList.reverse.dropWhile (· == '\n')
  String.ofList (written.takeWhile (· != '\n')).reverse

def Subject.block? : Subject → Option ErrorBlock
  | .nothing => none
  | .noError => some ⟨none, none, "NoneType: None"⟩
  | .error report =>
    let trace :=
      if report.message = "" then report.qualifiedName
      else report.qualifiedName ++ ": " ++ report.message
    some ⟨some report.typeName, some report.message, lastTraceLine trace⟩

structure Line where
  level : Level
  logger : String
  message : String
  /-- The known facts about the node at hand. -/
  facts : Record
  /-- Everything else that was said. -/
  context : Record
  error : Option ErrorBlock

namespace Line

def make (level : Level) (logger message : String) (said : Record) (subject : Subject) : Line where
  level := level
  logger := logger
  message := message
  facts := nodeFacts.filterMap fun name => (said.lookup name).map fun v => (name, v)
  context := said.filter fun entry => !(entry.1 ∈ nodeFacts) && !(entry.1 ∈ heldBack)
  error := subject.block?

/-- The names at the top of a line, in the order in which they are written. -/
def keys (line : Line) : List String :=
  ["timestamp", "level", "logger", "message"] ++ line.facts.map Prod.fst ++
    (if line.context.isEmpty then [] else ["context"]) ++
    (if line.error.isSome then ["error"] else []) ++ ["source"]

end Line

/-- What becomes of an entry depends also on the system that a program logs with. -/
structure Backend where
  /-- Every entry tells the task that it is made in. -/
  tasks : Bool
  /-- What keeps a line from being written down. -/
  hurdle? : Line → Option Hurdle

namespace Backend

/-- A system that can write down every line. -/
def plain (tasks : Bool) : Backend where
  tasks := tasks
  hurdle? _ := none

def standard : Backend :=
  plain false

/-- Hands a line to so many writers. If a number in it is too long they lose it, but if it is nested
too deeply the program is told. -/
def deliver (backend : Backend) (line : Line) (writers : Nat) : Except Report (List Line) :=
  if writers = 0 then
    .ok []
  else
    match backend.hurdle? line with
    | none => .ok (List.replicate writers line)
    | some .digits => .ok []
    | some .nesting => .error .exhausted

end Backend

end Log

end SourceSpan
