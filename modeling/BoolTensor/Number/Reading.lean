import BoolTensor.Number.Rounding
import BoolTensor.Text.Digits

/-!
# Reading decimals

## Main definitions

* `Binary64.read?`: the number nearest to a decimal text, which may have a fraction and an exponent
-/

namespace BoolTensor.Binary64

/-- A text before the first character that passes a test, and the text after it, if there is
one. -/
def cutAt (test : Char → Bool) (text : List Char) : List Char × Option (List Char) :=
  match text.dropWhile (!test ·) with
  | [] => (text, none)
  | _ :: rest => (text.takeWhile (!test ·), some rest)

/-- The number of a decimal text without a sign, or its negative. -/
def readMagnitude? (negative : Bool) (text : List Char) : Option Binary64 := do
  if text = "Infinity".toList then return infinity negative
  let (decimal, power) := cutAt (fun c => c = 'e' || c = 'E') text
  let (whole, fraction) := cutAt (· = '.') decimal
  let digits ← Text.natural? (whole ++ fraction.getD [])
  let power ← Text.signed? (power.getD ['0'])
  return ofDecimal negative digits (power - (fraction.getD []).length)

/-- The number nearest to a decimal text. -/
def read? (text : String) : Option Binary64 :=
  match text.toList with
  | ['N', 'a', 'N'] => some (nan false)
  | '-' :: magnitude => readMagnitude? true magnitude
  | magnitude => readMagnitude? false magnitude

end BoolTensor.Binary64
