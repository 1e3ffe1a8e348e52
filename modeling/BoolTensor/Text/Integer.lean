/-!
# Integers in writing

What counts as an integer where a user writes one: blanks around it, an optional sign, and decimal
digits of any script, between which single underscores may stand.

## Main definitions

* `digitZeros`, `digitValue?`: the decimal digits of all scripts
* `isBlank`: the characters that may surround an integer
* `readInteger`, `integerOf?`: the integer that a text stands for, with and without the reason why
  there is none
-/

namespace BoolTensor.Text

/-- The code points of the digit zero in each script that has decimal digits; the other nine digits
follow it. -/
def digitZeros : List Nat :=
  [0x30, 0x660, 0x6f0, 0x7c0, 0x966, 0x9e6, 0xa66, 0xae6, 0xb66, 0xbe6, 0xc66, 0xce6, 0xd66, 0xde6,
    0xe50, 0xed0, 0xf20, 0x1040, 0x1090, 0x17e0, 0x1810, 0x1946, 0x19d0, 0x1a80, 0x1a90, 0x1b50,
    0x1bb0, 0x1c40, 0x1c50, 0xa620, 0xa8d0, 0xa900, 0xa9d0, 0xa9f0, 0xaa50, 0xabf0, 0xff10, 0x104a0,
    0x10d30, 0x11066, 0x110f0, 0x11136, 0x111d0, 0x112f0, 0x11450, 0x114d0, 0x11650, 0x116c0,
    0x11730, 0x118e0, 0x11950, 0x11c50, 0x11d50, 0x11da0, 0x16a60, 0x16ac0, 0x16b50, 0x1d7ce,
    0x1d7d8, 0x1d7e2, 0x1d7ec, 0x1d7f6, 0x1e140, 0x1e2f0, 0x1e950, 0x1fbf0]

/-- The value of a decimal digit of any script. -/
def digitValue? (c : Char) : Option Nat :=
  (digitZeros.find? fun start => start ≤ c.toNat && c.toNat < start + 10).map (c.toNat - ·)

/-- The blanks that may surround an integer. -/
def isBlank (c : Char) : Bool :=
  let code := c.toNat
  (9 ≤ code && code ≤ 13) || code = 0x20 || code = 0x85 || code = 0xa0 || code = 0x1680
    || (0x2000 ≤ code && code ≤ 0x200a) || code = 0x2028 || code = 0x2029 || code = 0x202f
    || code = 0x205f || code = 0x3000

/-- The values of digits between which single underscores may stand. -/
def digitValues? : List Char → Option (List Nat)
  | [] => none
  | [c] => (digitValue? c).map ([·])
  | c :: '_' :: rest => do
    let value ← digitValue? c
    let values ← digitValues? rest
    return value :: values
  | c :: next :: rest => do
    let value ← digitValue? c
    let values ← digitValues? (next :: rest)
    return value :: values

/-- The most digits that an integer in writing may have. -/
def maxDigits : Nat := 4300

/-- Why a text stands for no integer. -/
inductive IntegerFault where
  /-- It is not written as one. -/
  | malformed
  /-- It has more digits than are read. -/
  | tooLong (digits : Nat)
  deriving DecidableEq, Repr

/-- Whether a character may be part of a number in writing. -/
def isDigitOrUnderscore (c : Char) : Bool :=
  c = '_' || (digitValue? c).isSome

/-- The number that a text without a sign stands for. The digits at its start are counted before
what follows them is looked at. -/
def readNatural (text : List Char) : Except IntegerFault Nat := do
  let run := text.takeWhile isDigitOrUnderscore
  match digitValues? run with
  | none => throw .malformed
  | some values =>
    if values.length > maxDigits then throw (.tooLong values.length)
    if run.length < text.length then throw .malformed
    return values.foldl (fun number value => 10 * number + value) 0

/-- A text without the blanks around it. -/
def trimmed (text : List Char) : List Char :=
  ((text.dropWhile isBlank).reverse.dropWhile isBlank).reverse

/-- The integer that a text stands for, or why there is none. -/
def readInteger (text : String) : Except IntegerFault Int :=
  match trimmed text.toList with
  | '-' :: digits => (readNatural digits).map fun value => -(value : Int)
  | '+' :: digits => (readNatural digits).map Int.ofNat
  | digits => (readNatural digits).map Int.ofNat

def integerOf? (text : String) : Option Int :=
  (readInteger text).toOption

end BoolTensor.Text
