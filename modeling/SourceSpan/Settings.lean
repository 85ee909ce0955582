import SourceSpan.Schema.Scalar
import SourceSpan.Settings.Assignments

/-!
# Settings

Settings hold for a whole program. Each is taken from what the program asks for, or else from its
environment, or else from a file, and otherwise has a default. No bound is checked here: a setting
is checked against the bounds of its use.
-/

namespace SourceSpan

open Schema

/-- What holds unless a computation asks for something else. -/
structure Settings where
  /-- Spans are widened over comments. -/
  includeComments : Bool := false
  /-- How deep children may lie. -/
  maxDepth : Int := 200
  /-- How many workers share a batch. -/
  maxWorkers : Int := 3
  /-- The least level of a log entry that is written. -/
  logLevel : String := "INFO"
deriving DecidableEq

namespace Settings

/-- The names of the settings, in the order in which they are checked. -/
def names : List String :=
  ["include_comments", "max_depth", "max_workers", "log_level"]

/-- What the name of a setting starts with in an environment. -/
def variableStem : String := "QUOTED_RANGE_"

/-- Makes settings of their entries; those left out have their defaults. -/
def make (record : Record) : Except Rejection Settings :=
  Checked.result "Settings" <|
    Settings.mk
      <$> optional "include_comments" truth false record
      <*> optional "max_depth" whole 200 record
      <*> optional "max_workers" whole 3 record
      <*> optional "log_level" text "INFO" record

/-- The entries for which an environment has a variable. -/
def ofEnvironment (environment : Environment) : Record :=
  names.filterMap fun name =>
    (environment.find? (variableStem ++ name)).map fun value => (name, .text value)

/-- Settings from what is asked for, from the environment and from a file, in this order. -/
def load (asked : Record) (environment file : Environment) : Except Rejection Settings :=
  make (asked ++ ofEnvironment environment ++ ofEnvironment file)

end Settings

end SourceSpan
