import SourceSpan.Schema.Basic
import SourceSpan.Numeral.Reader

/-!
# Numbers, truth values and texts

A whole number may come as a truth value, as a floating-point number without a fraction, or written
out. Whole numbers themselves are of any size, but a floating-point number is only converted if it
lies inside of a machine word. A truth value may come as one or zero or as one of a few words, in
any case of letters but without blanks; numbers inside of a machine word count as misspelled truth
values, others as no truth values at all. A text only comes as a text.
-/

namespace SourceSpan.Schema

/-- The least number that is too large for a signed machine word. -/
def wordBound : Int := 9223372036854775808

/-- A floating-point number as a whole number. The bounds of a word are outside of it on both sides.
-/
def wholeOfReal (x : Float) : Checked Int :=
  match Binary.ofFloat x with
  | .infinite _ => .refuse .notFinite
  | .notANumber => .refuse .notFinite
  | b@(.finite ..) =>
    match b.toInt? with
    | none => .refuse .fractional
    | some n =>
      if -wordBound < n ∧ n < wordBound then .accepted n else .refuse .oversizedWhole

def causeOfUnread : Numeral.WholeFault → Cause
  | .unreadable => .unreadableWhole
  | .tooLong => .oversizedWhole

def whole : Check Int
  | .number (.whole n) => .accepted n
  | .number (.real x) => wholeOfReal x
  | .bool b => .accepted (if b then 1 else 0)
  | .text s =>
    match Numeral.readWhole s with
    | .ok n => .accepted n
    | .error fault => .refuse (causeOfUnread fault)
  | _ => .refuse .notWhole

/-- A count that starts at one. -/
structure Ordinal where
  val : Nat
  pos : 0 < val

def ordinal : Check Ordinal := fun v =>
  match whole v with
  | .accepted n => if h : 1 ≤ n then .accepted ⟨n.toNat, by omega⟩ else .refuse .tooSmall
  | .refused issues => .refused issues

def trueWords : List String := ["1", "on", "t", "true", "y", "yes"]

def falseWords : List String := ["0", "off", "f", "false", "n", "no"]

/-- A number inside of a word as a truth value. -/
def truthOfWord (n : Int) : Checked Bool :=
  if n = 0 then .accepted false
  else if n = 1 then .accepted true
  else .refuse .unreadableBool

def truth : Check Bool
  | .bool b => .accepted b
  | .number (.whole n) =>
    if -wordBound ≤ n ∧ n < wordBound then truthOfWord n else .refuse .notBool
  | .number (.real x) =>
    match wholeOfReal x with
    | .accepted n => truthOfWord n
    | .refused _ => .refuse .notBool
  | .text s =>
    let word := s.map Char.toLower
    if word ∈ falseWords then .accepted false
    else if word ∈ trueWords then .accepted true
    else .refuse .unreadableBool
  | _ => .refuse .notBool

def text : Check String
  | .text s => .accepted s
  | _ => .refuse .notText

/-- The issues of a value that is neither a whole nor a floating-point number. -/
def neitherNumber (whole real : Cause) : Checked Numeral :=
  .refused [⟨[.key "int"], whole⟩, ⟨[.key "float"], real⟩]

/-- A number. Numbers keep their kind; a text is read as a whole number if it can be. -/
def number : Check Numeral
  | .number n => .accepted n
  | .bool b => .accepted (.whole (if b then 1 else 0))
  | .text s =>
    match Numeral.readWhole s, Numeral.readReal? s with
    | .ok n, _ => .accepted (.whole n)
    | .error _, some x => .accepted (.real x)
    | .error fault, none => neitherNumber (causeOfUnread fault) .unreadableReal
  | _ => neitherNumber .notWhole .notReal

end SourceSpan.Schema
