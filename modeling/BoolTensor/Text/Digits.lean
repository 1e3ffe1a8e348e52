/-!
# Digits

## Main definitions

* `natural?`, `signed?`: the number that decimal digits stand for, without a sign and with one
* `hexDigits`, `hexValue`: a number as hexadecimal digits, and the number that such digits stand for
-/

namespace BoolTensor.Text

/-- The number that decimal digits stand for. -/
def natural? (digits : List Char) : Option Nat :=
  if !digits.isEmpty && digits.all Char.isDigit then some (Nat.ofDigitChars 10 digits 0) else none

/-- The integer that decimal digits stand for, after a sign if there is one. -/
def signed? : List Char → Option Int
  | '-' :: digits => (natural? digits).map fun value => -(value : Int)
  | '+' :: digits => (natural? digits).map Int.ofNat
  | digits => (natural? digits).map Int.ofNat

/-- The hexadecimal digits of a number, at least so many. -/
def hexDigits (width value : Nat) : List Char :=
  let digits := Nat.toDigits 16 value
  List.replicate (width - digits.length) '0' ++ digits

/-- The number that hexadecimal digits stand for; letters are small. -/
def hexValue (digits : List Char) : Nat :=
  digits.foldl
    (fun value c => 16 * value + if c.isDigit then c.toNat - 48 else c.toNat - 87) 0

end BoolTensor.Text
