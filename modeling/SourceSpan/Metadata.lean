import SourceSpan.Span

/-!
# What a parser records about a node

Every entry is optional on its own. The layout rules ask for the entries they depend on, so a tree
that lacks one is refused instead of being given a span that is merely plausible.

Own coordinates are recorded as they came, with no bound: a coordinate below one is noticed when
a rule turns it into a position.
-/

namespace SourceSpan

/-- A comment in front of a node, its marker included in the text. -/
@[ext]
structure Comment where
  line : Nat
  /-- Where the comment starts; left out, it starts its line. -/
  column : Option Int := none
  text : String
  line_pos : 0 < line := by omega

namespace Comment

instance : DecidableEq Comment := fun a b =>
  decidable_of_iff _ (Comment.ext_iff (x := a) (y := b)).symm

/-- The column a comment starts in: the first one if none, or zero, is recorded. -/
def startColumn (comment : Comment) : Int :=
  match comment.column with
  | none => 1
  | some 0 => 1
  | some column => column

def stopColumn (comment : Comment) : Int :=
  comment.startColumn + comment.text.length

end Comment

/-- Positional facts about a node. -/
structure Metadata where
  /-- Line of the node's own token. -/
  line : Option Int := none
  /-- Column of the node's own token. -/
  column : Option Int := none
  /-- Where a closing bracket stands. -/
  closing : Option Position := none
  /-- Where a closing `end` stands. -/
  endWord : Option Position := none
  /-- What a string, atom or sigil is quoted with. -/
  delimiter : Option String := none
  /-- Where the last segment of an alias starts. -/
  last : Option Position := none
  /-- The call is written without parentheses. -/
  noParens : Bool := false
  /-- A number as it is written. -/
  token : Option String := none
  /-- The comments in front of the node, first to last. -/
  comments : List Comment := []
deriving DecidableEq

/-- The entries of the metadata, by name. -/
inductive Field where
  | line
  | column
  | closing
  | endWord
  | delimiter
  | last
  | noParens
  | token
  | comments
deriving DecidableEq

namespace Field

def name : Field → String
  | .line => "line"
  | .column => "column"
  | .closing => "closing"
  | .endWord => "end"
  | .delimiter => "delimiter"
  | .last => "last"
  | .noParens => "no_parens"
  | .token => "token"
  | .comments => "leading_comments"

/-- All entries, in the order in which they are written. -/
def all : List Field :=
  [.line, .column, .closing, .endWord, .delimiter, .last, .noParens, .token, .comments]

def ofName? (name : String) : Option Field :=
  all.find? (·.name == name)

end Field

namespace Metadata

/-- The node ends in a closing token: a bracket or an `end`. -/
def hasClosing (info : Metadata) : Bool :=
  info.closing.isSome || info.endWord.isSome

inductive Entry where
  | number (n : Int)
  | position (p : Position)
  | text (s : String)
  | flag (b : Bool)
  | comments (cs : List Comment)

/-- The content of an entry, if it is recorded; the flag and the comments always are. -/
def entry? (info : Metadata) : Field → Option Entry
  | .line => info.line.map .number
  | .column => info.column.map .number
  | .closing => info.closing.map .position
  | .endWord => info.endWord.map .position
  | .delimiter => info.delimiter.map .text
  | .last => info.last.map .position
  | .noParens => some (.flag info.noParens)
  | .token => info.token.map .text
  | .comments => some (.comments info.comments)

end Metadata

end SourceSpan
