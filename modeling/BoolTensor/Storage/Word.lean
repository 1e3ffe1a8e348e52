/-!
# Words of 32 bits

Single bits and masks of a machine word, and arrays of words read as one long row of bits: bit `i`
of the row is bit `i % 32` of word `i / 32`.

## Main definitions

* `Word.bit`, `Word.assign`, `Word.below`: a bit of a word, its replacement, and the word of the
  lowest bits
* `Words.bit`, `Words.assign`: the same on a row of bits
* `Words.slice`: a range of the row, out of the words that hold it
* `Words.fill`, `Words.keep`: setting a range of the row, and clearing all from a place on
-/

namespace BoolTensor

def wordBits : Nat := 32

def wordBytes : Nat := 4

/-- The number of words that hold `bits` bits. -/
def wordCount (bits : Nat) : Nat :=
  (bits + (wordBits - 1)) / wordBits

namespace Word

/-- The bit of a word at a place. -/
def bit (word : UInt32) (place : Nat) : Bool :=
  word.toNat.testBit place

/-- The word whose only bit is at a place below 32. -/
def single (place : Nat) : UInt32 :=
  1 <<< UInt32.ofNat place

def assign (word : UInt32) (place : Nat) (value : Bool) : UInt32 :=
  if value then word ||| single place else word &&& ~~~single place

/-- The word whose bits are set at the places below `stop`. -/
def below (stop : Nat) : UInt32 :=
  if stop < wordBits then single stop - 1 else ~~~0

/-- The word with the given bits. -/
def ofBits (value : Nat → Bool) : UInt32 :=
  (List.range wordBits).foldl
    (fun word place => if value place then word ||| single place else word) 0

end Word

namespace Words

/-- The bit of the row at a place; there is none after the last word. -/
def bit (words : Array UInt32) (place : Nat) : Bool :=
  Word.bit (words.getD (place / wordBits) 0) (place % wordBits)

def assign (words : Array UInt32) (place : Nat) (value : Bool) : Array UInt32 :=
  words.modify (place / wordBits) fun word => Word.assign word (place % wordBits) value

/-- The bits of the words from `first` up to and without `last`, lowest first. -/
def unpack (words : Array UInt32) (first last : Nat) : List Bool :=
  (List.range (last - first)).flatMap fun index =>
    (List.range wordBits).map (Word.bit (words.getD (first + index) 0))

/-- The bits of the row from `start` up to and without `stop`, cut out of those of the words that
hold them. -/
def slice (words : Array UInt32) (start stop : Nat) : List Bool :=
  let first := start / wordBits
  ((unpack words first (wordCount stop)).drop (start - wordBits * first)).take (stop - start)

/-- Sets bits one after the other from `start` on, as long as they are before `stop` and `ends` does
not hold of their place. Also gives the place that is reached. -/
def setUntil (ends : Nat → Bool) (words : Array UInt32) (start stop : Nat) : Array UInt32 × Nat :=
  if start < stop ∧ !ends start then setUntil ends (assign words start true) (start + 1) stop
  else (words, start)
termination_by stop - start

/-- Sets all bits of the words from `first` up to and without `last`. -/
def fillWords (words : Array UInt32) (first last : Nat) : Array UInt32 :=
  words.mapIdx fun index word => if first ≤ index ∧ index < last then ~~~0 else word

/-- Sets the bits of the row from `start` up to and without `stop`: one by one up to the first place
of a word, then word by word, and the rest one by one. -/
def fill (words : Array UInt32) (start stop : Nat) : Array UInt32 :=
  let (words, start) := setUntil (· % wordBits == 0) words start stop
  let whole := stop - stop % wordBits
  let (words, start) :=
    -- There may be no whole word after the bits that were set.
    if start < whole then (fillWords words (start / wordBits) (whole / wordBits), whole)
    else (words, start)
  (setUntil (fun _ => false) words start stop).1

/-- Clears the bits of the row from `stop` on. -/
def keep (words : Array UInt32) (stop : Nat) : Array UInt32 :=
  words.mapIdx fun index word => word &&& Word.below (stop - wordBits * index)

/-- The words of a row of bits, the last one filled up with zeros. -/
def pack (bits : Array Bool) : Array UInt32 :=
  Array.ofFn fun index : Fin (wordCount bits.size) =>
    Word.ofBits fun place => bits.getD (wordBits * index + place) false

end Words

end BoolTensor
