import Mathlib.Algebra.Order.Field.Rat
import Mathlib.Tactic.FieldSimp
import Mathlib.Tactic.Ring
import WasmLowering.Decimal.Rounding

/-! What decimal texts denote, and that a written number denotes what its digits say.

A text is read as C reads it: digits with perhaps a point among them, and perhaps an exponent
with a sign. The writer has three layouts, and in all of them the exponent belongs to
the first digit. -/

namespace WasmLowering.Decimal

/-! ## Reading -/

def digitsNumber (digits : List Char) : Nat := Nat.ofDigitChars 10 digits 0

def natural? (digits : List Char) : Option Nat :=
  if digits ≠ [] ∧ digits.all Char.isDigit then some (digitsNumber digits) else none

def exponent? : List Char → Option Int
  | [] => some 0
  | mark :: rest =>
      if mark = 'e' ∨ mark = 'E' then
        match rest with
        | '-' :: digits => (natural? digits).map fun number : Nat => -(number : Int)
        | '+' :: digits => (natural? digits).map Int.ofNat
        | digits => (natural? digits).map Int.ofNat
      else none

def decimal? (whole fraction behind : List Char) : Option ℚ :=
  if whole ++ fraction = [] then none
  else
    (exponent? behind).map fun exponent : Int =>
      (digitsNumber (whole ++ fraction) : ℚ) * 10 ^ (exponent - fraction.length)

def unsigned? (chars : List Char) : Option ℚ :=
  match chars.dropWhile Char.isDigit with
  | '.' :: more =>
      decimal? (chars.takeWhile Char.isDigit) (more.takeWhile Char.isDigit)
        (more.dropWhile Char.isDigit)
  | behind => decimal? (chars.takeWhile Char.isDigit) [] behind

def number? (text : String) : Option ℚ :=
  match text.toList with
  | '-' :: chars => (unsigned? chars).map (- ·)
  | chars => unsigned? chars

/-- The digits of a natural number, without zeros in front, which would make it octal. -/
structure IsPlainDecimal (text : String) (number : Nat) : Prop where
  digits : text.toList.all Char.isDigit = true
  noPadding : text.toList.head? = some '0' → text = "0"
  value : number? text = some (number : ℚ)

/-! ## Texts taken apart -/

def Stops (chars : List Char) : Prop := ∀ char ∈ chars.head?, char.isDigit = false

section

variable {digits behind : List Char}

theorem takeWhile_digits (all : digits.all Char.isDigit = true) (stops : Stops behind) :
    (digits ++ behind).takeWhile Char.isDigit = digits := by
  rw [List.takeWhile_append_of_pos (by simpa using all)]
  cases behind with
  | nil => simp
  | cons char rest => simp [stops char rfl]

theorem dropWhile_digits (all : digits.all Char.isDigit = true) (stops : Stops behind) :
    (digits ++ behind).dropWhile Char.isDigit = behind := by
  rw [List.dropWhile_append_of_pos (by simpa using all)]
  cases behind with
  | nil => simp
  | cons char rest => simp [stops char rfl]

end

theorem unsigned?_point {whole fraction behind : List Char}
    (isWhole : whole.all Char.isDigit = true) (isFraction : fraction.all Char.isDigit = true)
    (stops : Stops behind) :
    unsigned? (whole ++ '.' :: (fraction ++ behind)) = decimal? whole fraction behind := by
  have point : Stops ('.' :: (fraction ++ behind)) := by
    rintro char ⟨⟩
    rfl
  rw [unsigned?, dropWhile_digits isWhole point, takeWhile_digits isWhole point]
  show decimal? whole _ _ = _
  rw [takeWhile_digits isFraction stops, dropWhile_digits isFraction stops]

theorem unsigned?_whole {whole behind : List Char} (isWhole : whole.all Char.isDigit = true)
    (stops : Stops behind) (noPoint : behind.head? ≠ some '.') :
    unsigned? (whole ++ behind) = decimal? whole [] behind := by
  rw [unsigned?, dropWhile_digits isWhole stops, takeWhile_digits isWhole stops]
  split
  · next more => exact absurd rfl noPoint
  · rfl

theorem unsigned?_eq_none {chars : List Char} (stops : Stops chars)
    (noPoint : chars.head? ≠ some '.') : unsigned? chars = none :=
  unsigned?_whole List.all_nil stops noPoint

theorem decimal?_eq {whole fraction behind : List Char} {exponent : Int}
    (given : whole ++ fraction ≠ []) (isExponent : exponent? behind = some exponent) :
    decimal? whole fraction behind =
      some ((digitsNumber (whole ++ fraction) : ℚ) * 10 ^ (exponent - fraction.length)) := by
  rw [decimal?, if_neg given, isExponent]
  rfl

/-! ## Digits -/

theorem all_toDigits (number : Nat) : (Nat.toDigits 10 number).all Char.isDigit = true := by
  rw [List.all_eq_true]
  exact fun _ member => Nat.isDigit_of_mem_toDigits (by decide) (by decide) member

theorem all_zeros (count : Nat) : (List.replicate count '0').all Char.isDigit = true := by
  rw [List.all_eq_true]
  intro char member
  rw [List.eq_of_mem_replicate member]
  rfl

theorem all_append {left right : List Char} (isLeft : left.all Char.isDigit = true)
    (isRight : right.all Char.isDigit = true) : (left ++ right).all Char.isDigit = true := by
  rw [List.all_append, isLeft, isRight]
  rfl

theorem digitsNumber_toDigits (number : Nat) : digitsNumber (Nat.toDigits 10 number) = number :=
  Nat.ofDigitChars_ten_toDigits

theorem digitsNumber_zeros_append (count : Nat) (digits : List Char) :
    digitsNumber (List.replicate count '0' ++ digits) = digitsNumber digits := by
  rw [digitsNumber, Nat.ofDigitChars_append, Nat.ofDigitChars_replicate_zero, Nat.mul_zero]
  rfl

theorem digitsNumber_append_zeros (count : Nat) (digits : List Char) :
    digitsNumber (digits ++ List.replicate count '0') = digitsNumber digits * 10 ^ count := by
  rw [digitsNumber, Nat.ofDigitChars_append, Nat.ofDigitChars_replicate_zero, Nat.mul_comm]
  rfl

theorem head?_toDigits {number : Nat} (positive : 0 < number) :
    (Nat.toDigits 10 number).head? ≠ some '0' := by
  induction number using Nat.strongRecOn with
  | ind number smaller =>
      rw [Nat.toDigits_eq_if (by decide)]
      split
      · next small => simpa using positive.ne'
      · next large =>
          have leading := smaller (number / 10) (by omega) (by omega)
          rwa [List.head?_append_of_ne_nil _ Nat.toDigits_ne_nil]

theorem natural?_eq {digits : List Char} (given : digits ≠ [])
    (all : digits.all Char.isDigit = true) : natural? digits = some (digitsNumber digits) :=
  if_pos ⟨given, all⟩

theorem number?_eq_unsigned? {text : String} {number : ℚ}
    (read : unsigned? text.toList = some number) : number? text = some number := by
  rw [number?]
  split
  · next chars minus =>
      have nothing : unsigned? ('-' :: chars) = none :=
        unsigned?_eq_none (by simp [Stops]) (by simp)
      rw [minus, nothing] at read
      contradiction
  · exact read

theorem number?_toString (number : Nat) : number? (toString number) = some (number : ℚ) := by
  have stops : Stops [] := by simp [Stops]
  have all := all_toDigits number
  have read : unsigned? (Nat.toDigits 10 number) = some (number : ℚ) := by
    have whole := unsigned?_whole all stops (by simp)
    rw [List.append_nil] at whole
    rw [whole, decimal?_eq (by simp [Nat.toDigits_ne_nil]) rfl]
    simp [digitsNumber_toDigits]
  apply number?_eq_unsigned?
  rwa [Nat.toString_eq_ofList_toDigits, String.toList_ofList]

theorem isPlainDecimal_toString (number : Nat) : IsPlainDecimal (toString number) number where
  digits := by
    rw [Nat.toString_eq_ofList_toDigits, String.toList_ofList]
    exact all_toDigits number
  noPadding := by
    intro padded
    rcases Nat.eq_zero_or_pos number with rfl | positive
    · rfl
    · rw [Nat.toString_eq_ofList_toDigits, String.toList_ofList] at padded
      exact absurd padded (head?_toDigits positive)
  value := number?_toString number

/-! ## What is written -/

theorem exponent?_exponentText (exponent : Int) :
    exponent? (exponentText exponent).toList = some exponent := by
  have all := all_append (all_zeros (2 - (Nat.toDigits 10 exponent.natAbs).length))
    (all_toDigits exponent.natAbs)
  have isNumber := natural?_eq (List.append_ne_nil_of_right_ne_nil _ Nat.toDigits_ne_nil) all
  rw [digitsNumber_zeros_append, digitsNumber_toDigits] at isNumber
  dsimp only [exponentText]
  generalize List.replicate (2 - (Nat.toDigits 10 exponent.natAbs).length) '0' ++
    Nat.toDigits 10 exponent.natAbs = digits at isNumber
  rw [String.toList_append, String.toList_ofList]
  split
  · next negative =>
      have isExponent : -(exponent.natAbs : Int) = exponent := by omega
      show (natural? digits).map _ = _
      rw [isNumber, Option.map_some, isExponent]
  · next nonnegative =>
      have isExponent : (exponent.natAbs : Int) = exponent := by omega
      show (natural? digits).map _ = _
      rw [isNumber, Option.map_some, Int.ofNat_eq_natCast, isExponent]

theorem exponentText_stops (exponent : Int) :
    Stops (exponentText exponent).toList ∧ (exponentText exponent).toList.head? ≠ some '.' := by
  rw [exponentText, String.toList_append]
  split <;> simp [Stops]

/-- A point behind some of the digits, or zeros in front of where it would be. -/
theorem unsigned?_positional (whole : Nat) {digits : List Char} (given : digits ≠ [])
    (all : digits.all Char.isDigit = true) :
    unsigned? (String.ofList (digits.take whole ++ List.replicate (whole - digits.length) '0') ++
        if (digits.drop whole).isEmpty then ""
        else "." ++ String.ofList (digits.drop whole)).toList =
      some ((digitsNumber digits : ℚ) * 10 ^ ((whole : Int) - digits.length)) := by
  have stops : Stops [] := by simp [Stops]
  rw [String.toList_append, String.toList_ofList]
  split
  · next isEmpty =>
      have short : digits.length ≤ whole := by simpa using isEmpty
      have isPlace : (whole : Int) - digits.length = ((whole - digits.length : Nat) : Int) := by
        omega
      have noMore : "".toList = [] := rfl
      rw [List.take_of_length_le short, noMore,
        unsigned?_whole (all_append all (all_zeros _)) stops (by simp),
        decimal?_eq (by simp [given]) rfl, List.append_nil, digitsNumber_append_zeros, isPlace]
      push_cast
      simp
  · next isGiven =>
      have long : whole < digits.length := by simpa using isGiven
      have isWhole : (digits.take whole).all Char.isDigit = true := by
        rw [List.all_eq_true] at all ⊢
        exact fun char member => all char (List.mem_of_mem_take member)
      have isFraction : (digits.drop whole).all Char.isDigit = true := by
        rw [List.all_eq_true] at all ⊢
        exact fun char member => all char (List.mem_of_mem_drop member)
      have isPlace : (0 : Int) - (digits.drop whole).length = whole - digits.length := by
        rw [List.length_drop]
        omega
      have read := unsigned?_point isWhole isFraction stops
      rw [decimal?_eq (by simpa using given) rfl, List.take_append_drop, isPlace] at read
      simpa [Nat.sub_eq_zero_of_le long.le] using read

/-- In each layout a written number denotes its digits, with the first one at the place of
the exponent. -/
theorem unsigned?_text (limit : Nat) {digits : List Char} (given : digits ≠ [])
    (all : digits.all Char.isDigit = true) (exponent : Int) :
    unsigned? (text limit digits exponent).toList =
      some ((digitsNumber digits : ℚ) * 10 ^ (exponent + 1 - digits.length)) := by
  have stops : Stops [] := by simp [Stops]
  rcases exponentText_stops exponent with ⟨exponentStops, exponentMark⟩
  unfold text
  split
  · next large =>
      rcases digits with _ | ⟨digit, _ | ⟨second, rest⟩⟩
      · exact absurd rfl given
      · dsimp only
        rw [String.toList_append, String.toList_singleton,
          unsigned?_whole all exponentStops exponentMark,
          decimal?_eq (by simp) (exponent?_exponentText exponent)]
        simp
      · have isWhole : [digit].all Char.isDigit = true := by simp_all
        have isFraction : (second :: rest).all Char.isDigit = true := by simp_all
        have isText : (String.singleton digit ++ "." ++ String.ofList (second :: rest) ++
            exponentText exponent).toList =
              [digit] ++ '.' :: ((second :: rest) ++ (exponentText exponent).toList) := by
          simp
        dsimp only
        rw [isText, unsigned?_point isWhole isFraction exponentStops,
          decimal?_eq (by simp) (exponent?_exponentText exponent)]
        simp
  · next medium =>
      split
      · next negative =>
          have isFraction := all_append (all_zeros (-exponent - 1).toNat) all
          have isText : ("0." ++ String.ofList
              (List.replicate (-exponent - 1).toNat '0' ++ digits)).toList =
                ['0'] ++ '.' :: ((List.replicate (-exponent - 1).toNat '0' ++ digits) ++ []) := by
            simp
          have isNumber : digitsNumber
              (['0'] ++ (List.replicate (-exponent - 1).toNat '0' ++ digits)) =
                digitsNumber digits := by
            rw [← List.append_assoc]
            exact digitsNumber_zeros_append ((-exponent - 1).toNat + 1) digits
          have isPlace : (0 : Int) -
              (List.replicate (-exponent - 1).toNat '0' ++ digits).length =
                exponent + 1 - digits.length := by
            rw [List.length_append, List.length_replicate]
            omega
          rw [isText, unsigned?_point rfl isFraction stops, decimal?_eq (by simp) rfl, isNumber,
            isPlace]
      · next nonnegative =>
          have isWhole : ((exponent.toNat + 1 : Nat) : Int) = exponent + 1 := by omega
          rw [← isWhole]
          generalize exponent.toNat + 1 = whole
          exact unsigned?_positional whole given all

end WasmLowering.Decimal
