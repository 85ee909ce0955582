import SourceSpan.Numeral.Basic
import SourceSpan.Text.Blank

/-!
# Numbers as they are written

A whole number is reduced first and then read. Reducing drops blanks around it, a plus in front, the
zeros behind its sign with all underscores among them, a point at the end that nothing but zeros
follow, and last the single underscores inside of it. What is left has to be a minus or nothing, and
digits without superfluous zeros. So zeros may stand on one side of a minus, but not on both. A
reduced number of more than `longestWhole` characters is not read.

A floating-point number is an optional sign and digits with an optional point among them and an
optional exponent, or the word for infinity or for no number, in any case of letters. Its value is
the nearest floating-point number.
-/

namespace SourceSpan

/-- The floating-point number nearest to a decimal. Decimals far outside of the range of exponents
are settled without computing their powers. -/
def Decimal.toFloat (d : Decimal) : Float :=
  let place : Int := (Nat.toDigits 10 d.digits).length + d.exponent
  if d.digits = 0 ∨ place < -400 then 0.0
  else if 400 < place then 1.0 / 0.0
  else if d.exponent < 0 then Float.ofScientific d.digits true d.exponent.natAbs
  else Float.ofScientific d.digits false d.exponent.natAbs

namespace Numeral

def digitsValue (digits : List Char) : Nat :=
  digits.foldl (fun n c => 10 * n + (c.toNat - '0'.toNat)) 0

/-- A sign in front, and what follows it. -/
def splitSign : List Char → Bool × List Char
  | '-' :: rest => (true, rest)
  | '+' :: rest => (false, rest)
  | text => (false, text)

def hasDoubleUnderscore : List Char → Bool
  | '_' :: '_' :: _ => true
  | _ :: rest => hasDoubleUnderscore rest
  | [] => false

/-- Takes out underscores, which may stand neither at an end nor side by side. -/
def dropUnderscores? (text : List Char) : Option (List Char) :=
  if text.head? = some '_' ∨ text.getLast? = some '_' ∨ hasDoubleUnderscore text then none
  else some (text.filter (· != '_'))

/-- Drops a plus in front, which no minus may follow. -/
def dropPlus? : List Char → Option (List Char)
  | '+' :: '-' :: _ => none
  | '+' :: rest => some rest
  | text => some text

/-- Drops zeros and underscores behind a dropped character. The last one that is dropped comes back
if a point or nothing follows it. -/
def dropZerosBehind? (dropped : Char) : List Char → Option (List Char)
  | [] => some [dropped]
  | '.' :: rest => some (dropped :: '.' :: rest)
  | c :: rest =>
    if c = '0' ∨ c = '_' then dropZerosBehind? c rest
    else if c = '-' ∨ c.isDigit then some (c :: rest)
    else none

/-- Drops the zeros in front of digits, and the underscores among them and behind them. -/
def dropFrontZeros? : List Char → Option (List Char)
  | [] => none
  | '0' :: rest => dropZerosBehind? '0' rest
  | c :: rest => if c.isDigit then some (c :: rest) else none

/-- Drops the zeros in front of a number, behind its minus if it has one. -/
def dropZeros? : List Char → Option (List Char)
  | '-' :: rest => (dropFrontZeros? rest).map ('-' :: ·)
  | text => dropFrontZeros? text

/-- What may end a whole number: nothing, or a point and zeros. -/
def isNullFraction : List Char → Bool
  | [] => true
  | '.' :: zeros => !zeros.isEmpty && zeros.all (· == '0')
  | _ => false

/-- Drops a point at the end that nothing but zeros follow. -/
def dropNullFraction (text : List Char) : List Char :=
  if isNullFraction (text.dropWhile (· != '.')) then text.takeWhile (· != '.') else text

/-- Reduces the text of a whole number. Underscores that may not stand where they do are left for
the reading to refuse. -/
def reduceWhole? (text : List Char) : Option (List Char) := do
  let signed ← dropPlus? (Text.trim text)
  let number ← dropZeros? signed
  let digits := dropNullFraction number
  return (dropUnderscores? digits).getD digits

inductive WholeFault where
  /-- It is not written like one. -/
  | unreadable
  /-- It has more digits than are read. -/
  | tooLong
deriving DecidableEq

/-- The most characters that a reduced whole number has, its minus counted. -/
def longestWhole : Nat := 4300

def readReduced (text : List Char) : Except WholeFault Int :=
  let (negative, unsigned) := splitSign text
  let rest := unsigned.dropWhile Char.isDigit
  match unsigned.takeWhile Char.isDigit with
  | [] => .error .unreadable
  | '0' :: _ :: _ => .error .unreadable
  | digits =>
    if longestWhole < text.length - rest.length then .error .tooLong
    else if !rest.isEmpty then .error .unreadable
    else .ok (if negative then -(digitsValue digits : Int) else digitsValue digits)

def readWhole (text : String) : Except WholeFault Int :=
  match reduceWhole? text.toList with
  | some reduced => readReduced reduced
  | none => .error .unreadable

/-- Reads the exponent of a decimal, if there is one. -/
def readExponent? : List Char → Option Int
  | [] => some 0
  | mark :: rest =>
    if mark = 'e' ∨ mark = 'E' then
      let (negative, digits) := splitSign rest
      if digits.isEmpty || !digits.all Char.isDigit then none
      else some (if negative then -(digitsValue digits : Int) else digitsValue digits)
    else
      none

/-- Reads digits with an optional point and an optional exponent. -/
def readDecimal? (text : List Char) : Option Decimal :=
  let whole := text.takeWhile Char.isDigit
  let (fraction, rest) :=
    match text.dropWhile Char.isDigit with
    | '.' :: rest => (rest.takeWhile Char.isDigit, rest.dropWhile Char.isDigit)
    | rest => ([], rest)
  if whole.isEmpty && fraction.isEmpty then none
  else (readExponent? rest).map fun exponent =>
    ⟨digitsValue (whole ++ fraction), exponent - fraction.length⟩

/-- Reads a floating-point number without blanks and underscores. -/
def readPlainReal? (text : List Char) : Option Float :=
  let (negative, unsigned) := splitSign text
  let word := String.ofList (unsigned.map Char.toLower)
  let size :=
    if word = "inf" ∨ word = "infinity" then some (1.0 / 0.0)
    else if word = "nan" then some (0.0 / 0.0)
    else (readDecimal? unsigned).map Decimal.toFloat
  size.map fun x => if negative then -x else x

/-- Reads a floating-point number, with blanks around it or underscores in it. -/
def readReal? (text : String) : Option Float :=
  match readPlainReal? (Text.trim text.toList) with
  | some x => some x
  | none => (dropUnderscores? text.toList).bind readPlainReal?

end Numeral

end SourceSpan
