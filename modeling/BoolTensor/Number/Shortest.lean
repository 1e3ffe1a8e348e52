import BoolTensor.Number.Rounding

/-!
# Shortest decimals

The text of a floating-point number with as few digits as determine it: of the decimals that are
nearer to the number than to any other one of the format, one with the fewest digits, and of those
the nearest.

## Main definitions

* `Binary64.shortest`: the digits and the power of ten
* `Binary64.decimal`: the text, positional from `10 ^ -4` up to `10 ^ 16`, and with an exponent
  elsewhere
-/

namespace BoolTensor.Binary64

/-- The exponent of the power of ten above a positive fraction of the format. -/
def magnitude (num den : Nat) : Int :=
  ((Nat.toDigits 10 (num * Nat.pow 10 400 / den)).length : Int) - 400

/-- Half of the gap below a number and half of the gap above it, in quarters of a step of the
significand. The gap below a power of two is half as wide. -/
def halfGaps (significand : Nat) (exponent : Int) : Nat × Nat :=
  if significand = lead ∧ exponent > minExponent then (1, 2) else (2, 2)

/-- Whether a decimal `digits * 10 ^ power` rounds to the number `significand * 2 ^ exponent`. -/
def roundsTo (significand : Nat) (exponent : Int) (digits : Nat) (power : Int) : Bool :=
  let (below, above) := halfGaps significand exponent
  let (n, d) := scaled 1 1 (exponent - 2)
  let (decimalNum, decimalDen) := scaledTen digits 1 power
  let low := (4 * significand - below) * n * decimalDen
  let high := (4 * significand + above) * n * decimalDen
  let value := decimalNum * d
  if significand % 2 = 0 then low ≤ value && value ≤ high else low < value && value < high

/-- The nearest decimal with at most `count` digits, if one rounds to the number. -/
def withDigits? (significand : Nat) (exponent : Int) (count : Nat) : Option (Nat × Int) :=
  let (num, den) := scaled significand 1 exponent
  let power := magnitude num den - count
  let (n, d) := scaledTen num den (-power)
  let nearest := roundHalfEven n d
  ([nearest, n / d, n / d + 1].find? (roundsTo significand exponent · power)).map (·, power)

/-- The digits of the shortest decimal and its power of ten. -/
def shortest (significand : Nat) (exponent : Int) : Nat × Int :=
  ((List.range' 1 17).findSome? (withDigits? significand exponent)).getD (0, 0)

/-- A decimal `number * 10 ^ power` as text. -/
def decimalText (number : Nat) (power : Int) : String :=
  let digits := Nat.toDigits 10 number
  let digits := (digits.reverse.dropWhile (· = '0')).reverse
  let point : Int := (Nat.toDigits 10 number).length + power
  String.ofList (
    if point > 16 ∨ point < -3 then
      let exponent := point - 1
      let shown := Nat.toDigits 10 exponent.natAbs
      digits.take 1 ++ (if digits.length > 1 then '.' :: digits.drop 1 else [])
        ++ ['e', if exponent < 0 then '-' else '+']
        ++ List.replicate (2 - shown.length) '0' ++ shown
    else if point ≤ 0 then
      ['0', '.'] ++ List.replicate point.natAbs '0' ++ digits
    else
      let whole := digits.take point.toNat ++ List.replicate (point.toNat - digits.length) '0'
      let fraction := digits.drop point.toNat
      whole ++ '.' :: (if fraction.isEmpty then ['0'] else fraction))

/-- A datum as text. -/
def decimal (x : Binary64) : String :=
  x.signText ++
    match x with
    | finite _ significand exponent =>
      if significand = 0 then "0.0"
      else
        let (number, power) := shortest significand exponent
        decimalText number power
    | infinity _ => "inf"
    | nan _ => "nan"

end BoolTensor.Binary64
