import SourceSpan.Numeral.Shortest

/-!
# Numbers

A number is a whole number of any size or a floating-point number. The two kinds are compared by
value, so one and one point zero are the same number; only no-number differs from itself.

A floating-point number is shown by its shortest decimal: with a point for magnitudes from
`10 ^ -4` up to, and without, `10 ^ 16`, with an exponent outside of that.
-/

namespace SourceSpan

/-- A whole or a floating-point number. -/
inductive Numeral where
  | whole (n : Int)
  | real (x : Float)

namespace Numeral

/-- Equality of values across the two kinds. -/
def same : Numeral → Numeral → Bool
  | .whole m, .whole n => m == n
  | .real x, .real y => x == y
  | .whole n, .real x => (Binary.ofFloat x).toInt? == some n
  | .real x, .whole n => (Binary.ofFloat x).toInt? == some n

structure DecimalFormat where
  /-- A value of at least `10` to this power may be shown with a point. -/
  leastPlace : Int
  /-- A value of at least `10` to this power is shown with an exponent. -/
  greatestPlace : Int
  /-- The least number of digits in an exponent. -/
  exponentWidth : Nat

/-- Points from `0.0001` up to sixteen digits; exponents with a sign and two digits. -/
def format : DecimalFormat := ⟨-4, 16, 2⟩

def dropTrailingZeros (digits : List Char) : List Char :=
  (digits.reverse.dropWhile (· == '0')).reverse

/-- Digits with a decimal point behind the first `point` of them. -/
def positional (digits : List Char) (point : Int) : List Char :=
  if point ≤ 0 then
    '0' :: '.' :: (List.replicate (-point).toNat '0' ++ digits)
  else if digits.length ≤ point.toNat then
    digits ++ List.replicate (point.toNat - digits.length) '0' ++ ['.', '0']
  else
    digits.take point.toNat ++ '.' :: digits.drop point.toNat

/-- Digits with a decimal point behind the first of them, and an exponent. -/
def scientific (digits : List Char) (place : Int) : List Char :=
  let exponent := Nat.toDigits 10 place.natAbs
  let fraction := if digits.length ≤ 1 then [] else '.' :: digits.drop 1
  digits.take 1 ++ fraction ++ 'e' :: (if place < 0 then '-' else '+') ::
    (List.replicate (format.exponentWidth - exponent.length) '0' ++ exponent)

/-- The digits of a decimal that is not zero, laid out. -/
def layOut (d : Decimal) : List Char :=
  let written := Nat.toDigits 10 d.digits
  let point : Int := written.length + d.exponent
  let digits := dropTrailingZeros written
  if format.leastPlace < point ∧ point ≤ format.greatestPlace then positional digits point
  else scientific digits (point - 1)

def showReal (x : Float) : String :=
  match Binary.ofFloat x with
  | .notANumber => "nan"
  | .infinite negative => if negative then "-inf" else "inf"
  | .finite negative mantissa exponent =>
    let size := if mantissa = 0 then "0.0" else String.ofList (layOut (.shortest mantissa exponent))
    if negative then "-" ++ size else size

def showWhole (n : Int) : String :=
  let size := String.ofList (Nat.toDigits 10 n.natAbs)
  if n < 0 then "-" ++ size else size

def shown : Numeral → String
  | .whole n => showWhole n
  | .real x => showReal x

end Numeral

end SourceSpan
