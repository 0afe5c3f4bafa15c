/-! Positive fractions in scientific notation with a fixed number of digits.

A fraction is given by a numerator and a denominator, both positive. Its
*leading exponent* is the power of ten of its first decimal digit. -/

namespace WasmLowering.Decimal

def digitCount (value : Nat) : Nat :=
  (Nat.toDigits 10 value).length

def scale (numerator denominator : Nat) (exponent : Int) : Nat × Nat :=
  (numerator * Nat.pow 10 exponent.toNat, denominator * Nat.pow 10 (-exponent).toNat)

def leadingExponent (numerator denominator : Nat) : Int :=
  let estimate : Int := digitCount numerator - digitCount denominator
  let (scaled, unit) := scale numerator denominator (-estimate)
  if unit ≤ scaled then estimate else estimate - 1

example : leadingExponent 1 8 = -1 := by decide
example : leadingExponent 1000 1 = 3 := by decide

def roundQuotient (numerator denominator : Nat) : Nat :=
  let quotient := numerator / denominator
  let remainder := numerator % denominator
  if 2 * remainder < denominator then quotient
  else if denominator < 2 * remainder then quotient + 1
  else if quotient % 2 = 0 then quotient
  else quotient + 1

example : roundQuotient 5 2 = 2 := by decide
example : roundQuotient 7 2 = 4 := by decide

/-- A positive number `coefficient · 10 ^ (exponent + 1 - digits)`, where `digits`
is the number of digits of the coefficient; so `exponent` belongs to the first
one. -/
structure Scientific where
  coefficient : Nat
  exponent : Int
  deriving DecidableEq, Repr

def Scientific.digits (number : Scientific) : List Char :=
  ((Nat.toDigits 10 number.coefficient).reverse.dropWhile (· = '0')).reverse

/-- The multiple of the `digits`-th decimal place that is nearest to a fraction.
Rounding up to a power of ten moves the exponent. -/
def round (digits numerator denominator : Nat) : Scientific :=
  let exponent := leadingExponent numerator denominator
  let (scaled, unit) := scale numerator denominator (digits - 1 - exponent)
  let coefficient := roundQuotient scaled unit
  if coefficient = Nat.pow 10 digits then ⟨Nat.pow 10 (digits - 1), exponent + 1⟩
  else ⟨coefficient, exponent⟩

example : round 3 1 3 = ⟨333, -1⟩ := by decide
example : round 2 999 1000 = ⟨10, 0⟩ := by decide

/-! Writing such a number. Exponents below `-4` or from the limit on use an
exponent mark with a sign and at least two digits. -/

def exponentText (exponent : Int) : String :=
  let digits := Nat.toDigits 10 exponent.natAbs
  (if exponent < 0 then "e-" else "e+") ++
    String.ofList (List.replicate (2 - digits.length) '0' ++ digits)

def text (limit : Nat) (digits : List Char) (exponent : Int) : String :=
  if exponent < -4 || (limit : Int) ≤ exponent then
    match digits with
    | [] => "0"
    | [digit] => String.singleton digit ++ exponentText exponent
    | digit :: rest =>
        String.singleton digit ++ "." ++ String.ofList rest ++ exponentText exponent
  else if exponent < 0 then
    "0." ++ String.ofList (List.replicate (-exponent - 1).toNat '0' ++ digits)
  else
    let whole := exponent.toNat + 1
    let fraction := digits.drop whole
    String.ofList (digits.take whole ++ List.replicate (whole - digits.length) '0') ++
      if fraction.isEmpty then "" else "." ++ String.ofList fraction

example : text 9 ['1', '2', '5'] 1 = "12.5" := by decide
example : text 9 ['1'] 9 = "1e+09" := by decide
example : text 9 ['4', '2'] (-2) = "0.042" := by decide

end WasmLowering.Decimal
