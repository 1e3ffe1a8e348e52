import BoolTensor.Number.Rounding

/-!
# Amounts of memory in writing

## Main definitions

* `bytesText`: a number of bytes in the largest unit that fits, with three digits
-/

namespace BoolTensor.Text

/-- A quotient of one or more with three digits, and with more where its whole part has more. -/
def threeDigits (num den : Nat) : String :=
  let hundredths := roundHalfEven (100 * num) den
  let tenths := roundHalfEven (10 * num) den
  if hundredths < 1000 then
    s!"{hundredths / 100}.{hundredths / 10 % 10}{hundredths % 10}"
  else if tenths < 1000 then s!"{tenths / 10}.{tenths % 10}"
  else s!"{roundHalfEven num den}."

/-- The units of memory, each 1024 times the one before. -/
def memoryUnits : List String :=
  ["bytes", "KiB", "MiB", "GiB", "TiB", "PiB", "EiB"]

/-- A number of bytes in the largest unit of which there is one after rounding. -/
def bytesText (bytes : Nat) : String :=
  let power := Nat.log2 bytes / 10
  let power := if roundHalfEven bytes (1 <<< (10 * power)) = 1024 then power + 1 else power
  threeDigits bytes (1 <<< (10 * power)) ++ " " ++ memoryUnits.getD power "EiB"

end BoolTensor.Text
