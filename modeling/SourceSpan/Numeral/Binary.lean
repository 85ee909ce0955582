/-!
# Binary floating point, taken apart

The 64 bits of a floating-point number give a sign and `mantissa * 2 ^ exponent`, an infinity, or no
number at all. Everything the library says about such a number is said about these parts, in exact
integer arithmetic.
-/

namespace SourceSpan

/-- What the bits of a floating-point number stand for. -/
inductive Binary where
  /-- The number `± mantissa * 2 ^ exponent`. -/
  | finite (negative : Bool) (mantissa : Nat) (exponent : Int)
  | infinite (negative : Bool)
  | notANumber
deriving DecidableEq

namespace Binary

/-- The number of bits of a mantissa behind its leading one. -/
def fractionBits : Nat := 52

/-- The exponent of the numbers next to zero, and the least there is. -/
def leastExponent : Int := -1074

/-- Takes sign, exponent and fraction out of the 64 bits. -/
def ofFloat (x : Float) : Binary :=
  let bits := x.toBits.toNat
  let negative := bits / Nat.pow 2 63 == 1
  let biased := bits / Nat.pow 2 fractionBits % Nat.pow 2 11
  let fraction := bits % Nat.pow 2 fractionBits
  if biased = 2047 then
    if fraction = 0 then .infinite negative else .notANumber
  else if biased = 0 then
    .finite negative fraction leastExponent
  else
    .finite negative (Nat.pow 2 fractionBits + fraction) (leastExponent + (biased - 1 : Nat))

/-- The whole number that this is, if it is one. -/
def toInt? : Binary → Option Int
  | .finite negative mantissa exponent =>
    let up := Nat.pow 2 exponent.toNat
    let down := Nat.pow 2 (-exponent).toNat
    if mantissa % down = 0 then
      let size : Int := (mantissa / down * up : Nat)
      some (if negative then -size else size)
    else
      none
  | .infinite _ => none
  | .notANumber => none

end Binary

end SourceSpan
