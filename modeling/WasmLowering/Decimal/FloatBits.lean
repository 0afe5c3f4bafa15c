import WasmLowering.Decimal.Rounding

/-! Binary floating-point numbers as bit patterns: their fields, their exact
values and their shortest decimal form.

All arithmetic is on natural numbers, so nothing here depends on the
floating-point unit. -/

namespace WasmLowering.Decimal

structure FloatFormat where
  fractionBits : Nat
  exponentBits : Nat

def single : FloatFormat := ⟨23, 8⟩
def double : FloatFormat := ⟨52, 11⟩

namespace FloatFormat

def fraction (format : FloatFormat) (bits : Nat) : Nat :=
  bits % Nat.pow 2 format.fractionBits

def biased (format : FloatFormat) (bits : Nat) : Nat :=
  bits / Nat.pow 2 format.fractionBits % Nat.pow 2 format.exponentBits

def isNegative (format : FloatFormat) (bits : Nat) : Bool :=
  bits / Nat.pow 2 (format.fractionBits + format.exponentBits) % 2 = 1

def topBiased (format : FloatFormat) : Nat :=
  Nat.pow 2 format.exponentBits - 1

def isInfinite (format : FloatFormat) (bits : Nat) : Bool :=
  format.biased bits = format.topBiased && format.fraction bits = 0

def isNaN (format : FloatFormat) (bits : Nat) : Bool :=
  format.biased bits = format.topBiased && format.fraction bits ≠ 0

def significand (format : FloatFormat) (bits : Nat) : Nat :=
  if format.biased bits = 0 then format.fraction bits
  else Nat.pow 2 format.fractionBits + format.fraction bits

def scaleExponent (format : FloatFormat) (bits : Nat) : Int :=
  (max (format.biased bits) 1 : Nat) - (Nat.pow 2 (format.exponentBits - 1) - 1 : Nat) -
    format.fractionBits

def binaryFraction (significand : Nat) (exponent : Int) : Nat × Nat :=
  (significand * Nat.pow 2 exponent.toNat, Nat.pow 2 (-exponent).toNat)

def magnitude (format : FloatFormat) (bits : Nat) : Nat × Nat :=
  binaryFraction (format.significand bits) (format.scaleExponent bits)

/-! The reals that round to a value lie between the midpoints to its two
neighbours. In units of a quarter of the last place, the value is four times
the significand; the upper midpoint is two units away, and so is the lower one,
except above a power of two, where the neighbour below is half as far. -/

def isBinadeStart (format : FloatFormat) (bits : Nat) : Bool :=
  format.fraction bits = 0 && 1 < format.biased bits

def roundsTo (format : FloatFormat) (bits numerator denominator : Nat) : Bool :=
  let significand := format.significand bits
  let exponent := format.scaleExponent bits - 2
  let lower := binaryFraction
    (4 * significand - if format.isBinadeStart bits then 1 else 2) exponent
  let upper := binaryFraction (4 * significand + 2) exponent
  let left := numerator * lower.2
  let right := numerator * upper.2
  if significand % 2 = 0 then
    lower.1 * denominator ≤ left && right ≤ upper.1 * denominator
  else
    lower.1 * denominator < left && right < upper.1 * denominator

/-- The decimal with the given number of digits that rounds to the bit pattern,
if there is one. Only the two neighbours of the value on that grid can: of both
the nearer one is taken, and the even one if they are equally near. -/
def decimalWith? (format : FloatFormat) (bits digits : Nat) : Option Scientific :=
  let (numerator, denominator) := format.magnitude bits
  let exponent := leadingExponent numerator denominator
  let shift : Int := digits - 1 - exponent
  let (scaled, unit) := scale numerator denominator shift
  let below := scaled / unit
  let nearest := roundQuotient scaled unit
  let fits (coefficient : Nat) : Bool :=
    let (top, bottom) := scale coefficient 1 (-shift)
    format.roundsTo bits top bottom
  let other := if nearest = below then below + 1 else below
  let settle (coefficient : Nat) : Scientific :=
    if coefficient = Nat.pow 10 digits then ⟨Nat.pow 10 (digits - 1), exponent + 1⟩
    else ⟨coefficient, exponent⟩
  if fits nearest then some (settle nearest)
  else if fits other then some (settle other)
  else none

/-- The decimal with the fewest digits that rounds to a finite, positive bit
pattern. Seventeen digits are enough for every format here. -/
def shortest (format : FloatFormat) (bits : Nat) : Scientific :=
  match ((List.range 17).map (· + 1)).findSome? (format.decimalWith? bits) with
  | some number => number
  | none =>
      let (numerator, denominator) := format.magnitude bits
      round 17 numerator denominator

end FloatFormat

end WasmLowering.Decimal
