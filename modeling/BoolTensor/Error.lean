import BoolTensor.Cell
import BoolTensor.Text.Amount

/-!
# Failures

Every operation of the library that can refuse its arguments names the cause of the refusal as an
`Error`; `Error.message` is the one place where the wording lives.

## Main definitions

* `bracketed`, `entriesText`: the text of a list, and that of the dimensions of an array, as
  messages and printed values show them
* `Error`, `Error.message`: the causes and their wording
-/

namespace BoolTensor

/-- The items between square brackets, separated by a comma and a blank. -/
def bracketed (items : List String) : String :=
  "[" ++ ", ".intercalate items ++ "]"

def integersText (values : List Int) : String :=
  bracketed (values.map toString)

/-- A list of dimensions in brackets, marked as a shape. -/
def dimensionsText (dims : List Nat) : String :=
  "Shape(" ++ bracketed (dims.map toString) ++ ")"

/-- The dimensions of an array in parentheses; open ones are shown by a word, and not at all where
nothing stands before them. -/
def entriesText (dims : List Int) : String :=
  let shown := (dims.dropWhile (· < 0)).map fun dim =>
    if dim < 0 then "newaxis" else toString dim
  "(" ++ ",".intercalate shown ++ if dims.length = 1 ∧ !shown.isEmpty then ",)" else ")"

/-- How much of a quoted text a refusal shows. -/
def shownCharacters : Nat := 200

/-- The causes for which an operation refuses its arguments. -/
inductive Error where
  | emptyVector
  /-- The same refusal by a plain vector. -/
  | emptyPlainVector
  | indexOutOfRange (index : Int) (length : Nat)
  | rangeOutOfBounds (start stop : Int) (length : Nat)
  | truncateBeyondEnd (length : Nat) (newLength : Int)
  /-- The same refusal by a plain vector. -/
  | truncatePlainBeyondEnd
  /-- Chunks must hold at least one element. -/
  | chunkLength (length : Int)
  | appendToItself
  | negativeDimension (dims : List Int)
  | noFirstDimension
  /-- Dimensions can be spliced in between the first place and the last only. -/
  | insertPosition (position : Int) (dims : List Nat)
  /-- More dimensions are listed than the shape has. -/
  | mappingTooLong (part : List Int) (dims : List Nat)
  /-- A listed target dimension collides with the fresh ones. -/
  | mappingEntry (entry rest : Int)
  | coordinateCount (expected got : Nat)
  | coordinatesOutOfRange (coords : List Int) (dims : List Nat)
  | dimensionOutOfRange
  | wheelOutOfRange
  /-- The index is too large for a machine word, or too small. -/
  | indexTooWide
  /-- The number of elements is not the size of the shape. -/
  | elementCount (dims : List Nat) (needed got : Nat)
  /-- A mapping names one target for each source dimension. -/
  | mappingRank (mapping : List Int) (dims : List Nat)
  /-- A target dimension is missing or has another size than its source. -/
  | mappingInvalid (mapping : List Int) (source target : List Nat)
  /-- Only dimensions that exist can be joined. -/
  | joinCount (count : Int) (dims : List Nat)
  /-- A column of an array has no true entry. -/
  | noTrueEntry
  | tooManyDimensions (limit got : Nat)
  /-- A dimension of an array is too large for a machine word. -/
  | dimensionTooLarge
  | negativeArrayDimension
  /-- One dimension of an array may be left open at most. -/
  | severalOpenDimensions
  | entryCount (count : Nat) (dims : List Int)
  | arrayTooLarge
  | operandLengths (left right : Nat)
  | shapeMismatch (left right : List Nat)
  /-- A clause may mention allocated variables only. -/
  | invalidClause (literal : Int) (clause : List Int)
  /-- The literal names no allocated variable. -/
  | invalidLiteral (literal : Cell)
  /-- The engine could not decide, and gives this reason. -/
  | gaveUp (reason : String)
  /-- No solve has found a model, or a later one found none. -/
  | noModel
  /-- The variable is younger than the model. -/
  | createdAfterSolve (literal : Cell)
  | operandTypes (operator : String) (left right : ElementType)
  | operandType (operation : String) (operand : ElementType)
  | joinedType (other : ElementType)
  | unordered (operator : String) (left right : ElementType)
  /-- Values of this type are no places in a sequence. -/
  | placeType (given : ElementType)
  | integerType (given : ElementType)
  | integerText (text : String)
  /-- The text has more digits than are read. -/
  | integerDigits (limit count : Nat)
  | infiniteInteger
  /-- What is no number has no whole part. -/
  | undefinedInteger
  /-- The integer is beyond all floating-point numbers. -/
  | integerTooLarge
  | quotientTooLarge
  | zeroDivisor
  | notIterable (name : String)
  | noOperation (object name : String)
  /-- No machine word holds the length of the vector. -/
  | lengthTooWide
  /-- No machine word holds the number of elements to add. -/
  | countTooWide
  | outOfMemory
  /-- There is no memory for an array of so many entries, which would take so many bytes. -/
  | noMemory (bytes count : Nat) (entryType : String)
  /-- No machine word holds the number of items asked for, or it is below zero. -/
  | stopOutOfRange
  | entryTooWide
  /-- Tensors of constraints need an algebra that can solve. -/
  | notSatBacked (name : String)
  /-- Values of this type name no directory. -/
  | pathType (given : ElementType)
  | unknownLogLevel (name : String)
  /-- The name is not that of a level but of a layout. -/
  | layoutAsLogLevel (layout : String)
  /-- The name is not that of a level but of a table. -/
  | tableAsLogLevel (table : String)
  deriving DecidableEq, Repr

def Error.message : Error → String
  | emptyVector => "pop from empty vector"
  | emptyPlainVector => "pop"
  | indexOutOfRange index length =>
    s!"index {index} out of range for vector of length {length}"
  | rangeOutOfBounds start stop length =>
    s!"range [{start}, {stop}) out of bounds for vector of length {length}"
  | truncateBeyondEnd length newLength =>
    s!"cannot truncate vector of length {length} to {newLength}"
  | truncatePlainBeyondEnd => "truncate"
  | chunkLength length => s!"split length must be positive, got {length}"
  | appendToItself => "cannot append a vector to itself"
  | negativeDimension dims =>
    "dimensions must be non-negative, got " ++ integersText dims
  | noFirstDimension => "cannot split a shape with no dimensions"
  | insertPosition position dims =>
    s!"insert position {position} out of range for " ++ dimensionsText dims
  | mappingTooLong part dims =>
    "mapping prefix " ++ integersText part ++ " longer than " ++ dimensionsText dims
  | mappingEntry entry rest => s!"mapping entry {entry} must be less than {rest}"
  | coordinateCount expected got => s!"expected {expected} coordinates, got {got}"
  | coordinatesOutOfRange coords dims =>
    "coordinates " ++ integersText coords ++ " out of range for " ++ dimensionsText dims
  | dimensionOutOfRange => "tuple index out of range"
  | wheelOutOfRange => "list index out of range"
  | indexTooWide => "cannot fit 'int' into an index-sized integer"
  | elementCount dims needed got =>
    dimensionsText dims ++ s!" needs {needed} elements, got {got}"
  | mappingRank mapping dims =>
    "mapping " ++ integersText mapping ++ " does not match the rank of " ++ dimensionsText dims
  | mappingInvalid mapping source target =>
    "mapping " ++ integersText mapping ++ " from " ++ dimensionsText source ++ " to "
      ++ dimensionsText target ++ " is invalid"
  | joinCount count dims => s!"cannot join {count} dimensions of " ++ dimensionsText dims
  | noTrueEntry => "index 0 is out of bounds for axis 0 with size 0"
  | tooManyDimensions limit got =>
    s!"maximum supported dimension for an ndarray is currently {limit}, found {got}"
  | dimensionTooLarge => "Maximum allowed dimension exceeded"
  | negativeArrayDimension => "negative dimensions are not allowed"
  | severalOpenDimensions => "can only specify one unknown dimension"
  | entryCount count dims =>
    s!"cannot reshape array of size {count} into shape " ++ entriesText dims
  | arrayTooLarge =>
    "array is too big; `arr.size * arr.dtype.itemsize` is larger than the maximum possible size."
  | operandLengths left right => s!"operand lengths differ: {left} and {right}"
  | shapeMismatch left right =>
    "shape mismatch: " ++ dimensionsText left ++ " and " ++ dimensionsText right
  | invalidClause literal clause =>
    s!"invalid literal {literal} in clause " ++ integersText clause
  | invalidLiteral literal => "invalid literal " ++ literal.render
  | gaveUp reason => "solver gave up: " ++ reason
  | noModel => "no model available; call bool_find_model first"
  | createdAfterSolve literal =>
    "literal " ++ literal.render ++ " was created after the last solve"
  | operandTypes operator left right =>
    "unsupported operand type(s) for " ++ operator ++ ": '" ++ left.title ++ "' and '"
      ++ right.title ++ "'"
  | operandType operation operand =>
    "bad operand type for " ++ operation ++ ": '" ++ operand.title ++ "'"
  | joinedType other => "can only concatenate str (not \"" ++ other.title ++ "\") to str"
  | unordered operator left right =>
    "'" ++ operator ++ "' not supported between instances of '" ++ left.title ++ "' and '"
      ++ right.title ++ "'"
  | placeType given => "list indices must be integers or slices, not " ++ given.title
  | integerType given =>
    "int() argument must be a string, a bytes-like object or a real number, not '"
      ++ given.title ++ "'"
  | integerText text =>
    "invalid literal for int() with base 10: "
      ++ String.ofList ((Text.quotedText text).toList.take shownCharacters)
  | integerDigits limit count =>
    s!"Exceeds the limit ({limit} digits) for integer string conversion: value has {count} digits"
      ++ "; use sys.set_int_max_str_digits() to increase the limit"
  | infiniteInteger => "cannot convert float infinity to integer"
  | undefinedInteger => "cannot convert float NaN to integer"
  | integerTooLarge => "int too large to convert to float"
  | quotientTooLarge => "integer division result too large for a float"
  | zeroDivisor => "division by zero"
  | notIterable name => "'" ++ name ++ "' object is not iterable"
  | noOperation object name => "'" ++ object ++ "' object has no attribute '" ++ name ++ "'"
  | lengthTooWide => "cannot fit 'int' into an index-sized integer"
  | countTooWide => "Python int too large to convert to C ssize_t"
  | outOfMemory => ""
  | noMemory bytes count entryType =>
    "Unable to allocate " ++ Text.bytesText bytes ++ s!" for an array with shape ({count},)"
      ++ " and data type " ++ entryType
  | stopOutOfRange =>
    "Stop argument for islice() must be None or an integer: 0 <= x <= sys.maxsize."
  | entryTooWide => "Python int too large to convert to C long"
  | notSatBacked name => name ++ " is not a SAT-backed boolean algebra"
  | pathType given => "expected str, bytes or os.PathLike object, not " ++ given.title
  | unknownLogLevel name => "module 'logging' has no attribute '" ++ name ++ "'"
  | layoutAsLogLevel layout => "Unknown level: '" ++ layout ++ "'"
  | tableAsLogLevel table => "Level not an integer or a valid string: " ++ table

end BoolTensor
