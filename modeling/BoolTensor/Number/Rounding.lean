import BoolTensor.Number.Binary64

/-!
# Rounding

The number of the format that is nearest to a fraction, and fractions near to a number of the
format. All of it is exact arithmetic on integers.

## Main definitions

* `roundHalfEven`: a quotient rounded to the nearest integer, a half to the even neighbour
* `Binary64.nearest`: the number nearest to a positive fraction or its negative
* `Binary64.ofQuotient`, `Binary64.ofDecimal`: the number nearest to a quotient of integers, and to
  a decimal
* `Binary64.fixedTwo`: the exact value with two decimal places
-/

namespace BoolTensor

/-- The integer nearest to a quotient; of two equally near ones the even one. -/
def roundHalfEven (num den : Nat) : Nat :=
  let quotient := num / den
  let twice := 2 * (num % den)
  if twice > den ∨ (twice = den ∧ quotient % 2 = 1) then quotient + 1 else quotient

namespace Binary64

/-- A fraction times a power of two, as a fraction. -/
def scaled (num den : Nat) (power : Int) : Nat × Nat :=
  if power < 0 then (num, den <<< power.natAbs) else (num <<< power.toNat, den)

/-- A fraction times a power of ten, as a fraction. -/
def scaledTen (num den : Nat) (power : Int) : Nat × Nat :=
  if power < 0 then (num, den * Nat.pow 10 power.natAbs) else (num * Nat.pow 10 power.toNat, den)

/-- The exponent for a positive fraction: the significand gets its full width, if the format has
the exponent for that. -/
def exponentFor (num den : Nat) : Int :=
  let guess : Int := (Nat.log2 num : Int) - Nat.log2 den - (precision - 1 : Nat)
  let (n, d) := scaled num den (-guess)
  max minExponent (if n / d < lead then guess - 1 else guess)

/-- A significand with its exponent as a datum: one that has become too wide loses its last bit,
which is zero then, and what is too large for the format is infinite. -/
def normalized (negative : Bool) (significand : Nat) (exponent : Int) : Binary64 :=
  let (significand, exponent) :=
    if significand = 2 * lead then (lead, exponent + 1) else (significand, exponent)
  if exponent > maxExponent then infinity negative else finite negative significand exponent

/-- The number nearest to a fraction that is not below zero, or its negative; of two equally near
ones the one with an even significand. -/
def nearest (negative : Bool) (num den : Nat) : Binary64 :=
  if num = 0 then finite negative 0 minExponent
  else
    let exponent := exponentFor num den
    let (n, d) := scaled num den (-exponent)
    normalized negative (roundHalfEven n d) exponent

/-- The number nearest to a quotient. A zero has the sign of the quotient, too. -/
def ofQuotient (num den : Int) : Binary64 :=
  nearest (decide (num < 0) != decide (den < 0)) num.natAbs den.natAbs

/-- The number nearest to an integer. -/
def ofInt (value : Int) : Binary64 :=
  ofQuotient value 1

/-- The number nearest to the decimal `digits * 10 ^ power`, or its negative. Far outside of the
range of the format the power itself is not needed. -/
def ofDecimal (negative : Bool) (digits : Nat) (power : Int) : Binary64 :=
  let top : Int := (Nat.toDigits 10 digits).length + power
  if digits = 0 ∨ top < -400 then finite negative 0 minExponent
  else if top > 400 then infinity negative
  else
    let (num, den) := scaledTen digits 1 power
    nearest negative num den

/-- The exact value with two decimal places, a half going to the even neighbour. The sign stays
where the value rounds to zero. -/
def fixedTwo (x : Binary64) : String :=
  let magnitude := match x with
    | finite _ significand exponent =>
      let (n, d) := scaled (100 * significand) 1 exponent
      let hundredths := roundHalfEven n d
      let cents := hundredths % 100
      toString (hundredths / 100) ++ "." ++ toString (cents / 10) ++ toString (cents % 10)
    | infinity _ => "inf"
    | nan _ => "nan"
  x.signText ++ magnitude

end Binary64

end BoolTensor
