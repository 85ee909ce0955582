import SourceSpan.Settings
import SourceSpan.Widening

/-!
# Options

Options hold for one computation. They are given whole, or as some entries that are laid over the
settings, or not at all. The settings are checked before they are overlaid, so a depth that is out
of bounds in the settings is refused even where it is overlaid.
-/

namespace SourceSpan

open Schema

/-- What a computation asks for. -/
structure Options where
  /-- The span is widened over comments. -/
  includeComments : Bool := false
  /-- How deep children may lie. -/
  maxDepth : Nat := 200
  maxDepth_pos : 0 < maxDepth := by omega

namespace Options

/-- No comments, and children up to two hundred levels deep. -/
def default : Options := { }

/-- Makes options of their entries; those left out have their defaults. -/
def make (record : Record) : Except Rejection Options :=
  Checked.result "RangeOptions" <|
    (fun includeComments maxDepth => ⟨includeComments, maxDepth.val, maxDepth.pos⟩)
      <$> optional "include_comments" truth default.includeComments record
      <*> optional "max_depth" ordinal ⟨default.maxDepth, default.maxDepth_pos⟩ record

def ofSettings (settings : Settings) : Except Rejection Options :=
  make [("include_comments", .bool settings.includeComments), ("max_depth", .int settings.maxDepth)]

def toRecord (options : Options) : Record :=
  [("include_comments", .bool options.includeComments), ("max_depth", .int options.maxDepth)]

end Options

inductive GivenOptions where
  | none
  /-- Some entries, laid over the settings. -/
  | entries (record : Record)
  | whole (options : Options)

/-- The options that are in force. -/
def GivenOptions.resolve (settings : Settings) : GivenOptions → Except Rejection Options
  | .none => Options.ofSettings settings
  | .entries record => do
    let defaults ← Options.ofSettings settings
    Options.make (record ++ defaults.toRecord)
  | .whole options => .ok options

/-- The span of a value under options: the plain span, widened over comments if that is asked for.
-/
def Options.spanOf (options : Options) (v : Value) (machine : optParam Machine .standard) :
    Except Fault Span := do
  let span ← v.span machine options.maxDepth
  if options.includeComments then span.widen v else return span

end SourceSpan
