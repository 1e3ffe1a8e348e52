/-!
# Binary floating-point numbers of 64 bits

The data of the format: finite numbers as a significand times a power of two, infinities, and the
results of undefined operations, each of them with a sign.

## Main definitions

* `Binary64`: the data
* `Binary64.bits`, `Binary64.ofBits`: a datum and its representation in memory
* `Binary64.same`, `Binary64.compareInteger`: comparison by value
* `Binary64.negate`, `Binary64.absolute`: the datum with another sign

## Design notes

A finite number is given by the significand and the exponent that its representation has: a
significand of full width, or the least exponent.
-/

namespace BoolTensor

/-- A datum of the format. -/
inductive Binary64 where
  /-- The number `significand * 2 ^ exponent`, or its negative. -/
  | finite (negative : Bool) (significand : Nat) (exponent : Int)
  | infinity (negative : Bool)
  | nan (negative : Bool)
  deriving DecidableEq, Repr

namespace Binary64

/-- The bits of a significand. -/
def precision : Nat := 53

/-- The least significand of full width. -/
def lead : Nat := 1 <<< (precision - 1)

/-- The least power of two in the format. -/
def minExponent : Int := -1074

/-- The largest power of two in the format. -/
def maxExponent : Int := 971

def zero : Binary64 := .finite false 0 minExponent

/-- The bits after the sign: the biased exponent, and the significand without its leading one. -/
def magnitudeBits : Binary64 → Nat
  | finite _ significand exponent =>
    if significand < lead then significand
    else (exponent - minExponent + 1).toNat * lead + (significand - lead)
  | infinity _ => 2047 * lead
  | nan _ => 2047 * lead + lead / 2

def isNegative : Binary64 → Bool
  | finite negative _ _ => negative
  | infinity negative => negative
  | nan negative => negative

/-- The datum with a given sign. -/
def withSign (negative : Bool) : Binary64 → Binary64
  | finite _ significand exponent => finite negative significand exponent
  | infinity _ => infinity negative
  | nan _ => nan negative

/-- The datum with the other sign. -/
def negate (x : Binary64) : Binary64 :=
  x.withSign (!x.isNegative)

/-- The datum without its sign. -/
def absolute (x : Binary64) : Binary64 :=
  x.withSign false

/-- The representation in memory. -/
def bits (x : Binary64) : UInt64 :=
  UInt64.ofNat ((if x.isNegative then 1 <<< 63 else 0) + x.magnitudeBits)

/-- The datum of a representation. -/
def ofBits (word : UInt64) : Binary64 :=
  let negative := word.toNat >>> 63 == 1
  let field := (word.toNat >>> 52) % 2048
  let fraction := word.toNat % lead
  if field = 2047 then if fraction = 0 then infinity negative else nan negative
  else if field = 0 then finite negative fraction minExponent
  else finite negative (lead + fraction) (minExponent + (field - 1 : Nat))

/-- Whether the datum is a zero of either sign. -/
def isZero : Binary64 → Bool
  | finite _ significand _ => significand == 0
  | _ => false

def isNaN : Binary64 → Bool
  | nan _ => true
  | _ => false

/-- The sign of a datum in writing; what is no number shows none. -/
def signText (x : Binary64) : String :=
  if x.isNegative && !x.isNaN then "-" else ""

/-- Whether two data have the same value: the zeros do, and what is no number equals nothing. -/
def same (x y : Binary64) : Bool :=
  !x.isNaN && (x == y || x.isZero && y.isZero)

/-- How the exact value of a datum lies to an integer; what is no number cannot be compared. -/
def compareInteger (x : Binary64) (value : Int) : Option Ordering :=
  match x with
  | finite negative significand exponent =>
    let magnitude : Int := if negative then -(significand : Int) else significand
    if exponent < 0 then some (compare magnitude (value <<< exponent.natAbs))
    else some (compare (magnitude <<< exponent.toNat) value)
  | infinity negative => some (if negative then .lt else .gt)
  | nan _ => none

/-- Whether a datum has exactly the value of an integer. -/
def sameInteger (x : Binary64) (value : Int) : Bool :=
  x.compareInteger value == some .eq

/-- The integer next to a finite number on the side of zero. -/
def wholePart : Binary64 → Int
  | finite negative significand exponent =>
    let magnitude :=
      if exponent < 0 then significand >>> exponent.natAbs else significand <<< exponent.toNat
    if negative then -(magnitude : Int) else magnitude
  | _ => 0

end Binary64

end BoolTensor
