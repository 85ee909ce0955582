import SourceSpan.Numeral.Binary

/-!
# The shortest decimal of a binary number

Among the decimals that read back as a given binary number, the one with the fewest digits is taken,
and of those with equally few the nearest. A decimal reads back if it lies between the midpoints to
the two neighbouring numbers; a midpoint itself counts exactly when the mantissa is even. Below a
power of two the lower neighbour is only half as far away.

For each number of digits only the two multiples of the last place around the value can be nearest,
so those are tried, for one digit, then two, and so on; seventeen digits always suffice.
-/

namespace SourceSpan

/-- The number `digits * 10 ^ exponent`. -/
structure Decimal where
  digits : Nat
  exponent : Int
deriving DecidableEq

namespace Decimal

/-- The decimals around a value that read back as it, all over one denominator. -/
structure Window where
  low : Nat
  value : Nat
  high : Nat
  denominator : Nat
  /-- The two ends read back too. -/
  closed : Bool

/-- The window of the number `mantissa * 2 ^ exponent`. -/
def Window.ofBinary (mantissa : Nat) (exponent : Int) : Window :=
  let unit := Nat.pow 2 (exponent - 2).toNat
  let isPower := mantissa = Nat.pow 2 Binary.fractionBits ∧ exponent ≠ Binary.leastExponent
  let below := if isPower then 1 else 2
  { low := (4 * mantissa - below) * unit
    value := 4 * mantissa * unit
    high := (4 * mantissa + 2) * unit
    denominator := Nat.pow 2 (2 - exponent).toNat
    closed := mantissa % 2 == 0 }

/-- The place of the leading digit: the greatest `e` for which `10 ^ e` is not above the value. -/
def Window.leadingPlace (w : Window) : Int :=
  if w.denominator ≤ w.value then
    ((Nat.toDigits 10 (w.value / w.denominator)).length - 1 : Nat)
  else
    match (List.range 400).find? fun s => w.denominator ≤ w.value * Nat.pow 10 s with
    | some s => -(s : Int)
    | none => 0

/-- The multiple of `10 ^ place` nearest to the value, if it reads back. -/
def Window.nearest? (w : Window) (place : Int) : Option Decimal :=
  let scale := Nat.pow 10 (-place).toNat
  let step := w.denominator * Nat.pow 10 place.toNat
  let value := w.value * scale
  let below := value / step
  let readsBack (n : Nat) : Bool :=
    if w.closed then w.low * scale ≤ n * step && n * step ≤ w.high * scale
    else w.low * scale < n * step && n * step < w.high * scale
  let belowError := value - below * step
  let aboveError := (below + 1) * step - value
  let preferBelow := belowError < aboveError || (belowError == aboveError && below % 2 == 0)
  match readsBack below, readsBack (below + 1) with
  | true, true => some ⟨if preferBelow then below else below + 1, place⟩
  | true, false => some ⟨below, place⟩
  | false, true => some ⟨below + 1, place⟩
  | false, false => none

/-- The shortest decimal of the positive number `mantissa * 2 ^ exponent`. -/
def shortest (mantissa : Nat) (exponent : Int) : Decimal :=
  let w := Window.ofBinary mantissa exponent
  let lead := w.leadingPlace
  ((List.range 17).findSome? fun n : Nat => w.nearest? (lead - n)).getD ⟨0, 0⟩

end Decimal

end SourceSpan
