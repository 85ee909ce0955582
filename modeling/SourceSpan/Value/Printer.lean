import SourceSpan.Value
import SourceSpan.Text.Quoted

/-!
# Values as they are shown

A value is shown on one line, whole: a node as its title with all of its entries, metadata first,
entries that are not recorded included. Groups inside a node stand in parentheses, and a group of
one keeps a comma; sequences and records on their own stand in brackets and braces.
-/

namespace SourceSpan

namespace Printer

def absent : String := "None"

def optional {α : Type} (print : α → String) : Option α → String
  | none => absent
  | some a => print a

def bool (b : Bool) : String :=
  if b then "True" else "False"

def listed (left : String) (items : List String) (right : String) : String :=
  left ++ ", ".intercalate items ++ right

/-- Items in parentheses; a single one keeps a comma, to tell it from a bracketed item. -/
def group : List String → String
  | [item] => "(" ++ item ++ ",)"
  | items => listed "(" items ")"

/-- A title with named entries. -/
def entries (title : String) (named : List (String × String)) : String :=
  title ++ listed "(" (named.map fun (name, shown) => name ++ "=" ++ shown) ")"

end Printer

open Printer

def Position.shown (p : Position) : String :=
  entries "Position" [("line", Numeral.showWhole p.line), ("column", Numeral.showWhole p.column)]

def Comment.shown (c : Comment) : String :=
  entries "Comment"
    [("line", Numeral.showWhole c.line), ("column", optional Numeral.showWhole c.column),
      ("text", Text.quoted c.text)]

def Metadata.shown (info : Metadata) : String :=
  entries "Metadata"
    [(Field.line.name, optional Numeral.showWhole info.line),
      (Field.column.name, optional Numeral.showWhole info.column),
      (Field.closing.name, optional Position.shown info.closing),
      (Field.endWord.name, optional Position.shown info.endWord),
      (Field.delimiter.name, optional Text.quoted info.delimiter),
      (Field.last.name, optional Position.shown info.last),
      (Field.noParens.name, bool info.noParens),
      (Field.token.name, optional Text.quoted info.token),
      (Field.comments.name, group (info.comments.map Comment.shown))]

/-- A node of a shape, its metadata in front of its other entries. -/
def Shape.shown (shape : Shape) (info : Metadata) (named : List (String × String)) : String :=
  entries shape.title (("meta", info.shown) :: named)

mutual

def Node.shown : Node → String
  | .bare info => Shape.bare.shown info []
  | .number info value => Shape.number.shown info [("value", value.shown)]
  | .atom info value => Shape.atom.shown info [("value", Text.quoted value)]
  | .string info value => Shape.string.shown info [("value", Text.quoted value)]
  | .variable info name => Shape.variable.shown info [("name", Text.quoted name)]
  | .alias info segments => Shape.alias.shown info [("segments", group (segmentTexts segments))]
  | .block info items => Shape.block.shown info [("items", group (childTexts items))]
  | .pair info key value => Shape.pair.shown info [("key", key.shown), ("value", value.shown)]
  | .call info name args =>
    Shape.call.shown info [("name", Text.quoted name), ("args", group (childTexts args))]
  | .dot info receiver name =>
    Shape.dot.shown info [("receiver", receiver.shown), ("name", optional Text.quoted name)]
  | .remoteCall info dotInfo receiver name args =>
    Shape.remoteCall.shown info
      [("dot", Shape.dot.shown dotInfo
          [("receiver", receiver.shown), ("name", optional Text.quoted name)]),
        ("args", group (childTexts args))]
  | .access info subject key =>
    Shape.access.shown info [("subject", subject.shown), ("key", key.shown)]
  | .qualifiedTuple info receiver items =>
    Shape.qualifiedTuple.shown info
      [("receiver", receiver.shown), ("items", group (nodeTexts items))]
  | .embedded info expr => Shape.embedded.shown info [("expr", expr.shown)]
  | .interpolation info pieces =>
    Shape.interpolation.shown info [("segments", group (pieceTexts pieces))]
  | .interpolatedAtom info bodyInfo pieces =>
    Shape.interpolatedAtom.shown info
      [("body", Shape.interpolation.shown bodyInfo [("segments", group (pieceTexts pieces))])]
  | .bitstring info items => Shape.bitstring.shown info [("items", group (nodeTexts items))]
  | .sigil info letter bodyInfo pieces modifiers =>
    Shape.sigil.shown info
      [("letter", Text.quoted letter),
        ("body", Shape.interpolation.shown bodyInfo [("segments", group (pieceTexts pieces))]),
        ("modifiers", Text.quoted modifiers)]

def nodeTexts : List Node → List String
  | [] => []
  | n :: rest => n.shown :: nodeTexts rest

def childTexts : List Child → List String
  | [] => []
  | .node n :: rest => n.shown :: childTexts rest
  | .group ns :: rest => group (nodeTexts ns) :: childTexts rest

def segmentTexts : List Segment → List String
  | [] => []
  | .name s :: rest => Text.quoted s :: segmentTexts rest
  | .node n :: rest => n.shown :: segmentTexts rest

def pieceTexts : List Piece → List String
  | [] => []
  | .text s :: rest => Text.quoted s :: pieceTexts rest
  | .embedded info expr :: rest =>
    Shape.embedded.shown info [("expr", expr.shown)] :: pieceTexts rest

end

mutual

def Value.shown : Value → String
  | .null => absent
  | .bool b => Printer.bool b
  | .number n => n.shown
  | .text s => Text.quoted s
  | .sequence items => listed "[" (valueTexts items) "]"
  | .record named => listed "\x7b" (entryTexts named) "\x7d"
  | .node n => n.shown

def valueTexts : List Value → List String
  | [] => []
  | v :: rest => v.shown :: valueTexts rest

def entryTexts : List (String × Value) → List String
  | [] => []
  | (name, v) :: rest => (Text.quoted name ++ ": " ++ v.shown) :: entryTexts rest

end

end SourceSpan
