import BoolTensor.Number.Shortest
import BoolTensor.Text.Digits

/-!
# Documents

Values of lists and fields, and their text with one item on a line (the JSON format).

## Main definitions

* `Document`: the values
* `Document.render`: the text, indented by two blanks for each level
-/

namespace BoolTensor

/-- A value made of scalars, lists and named fields. -/
inductive Document where
  /-- The missing value. -/
  | null
  | truth (value : Bool)
  | integer (value : Int)
  | number (value : Binary64)
  | text (value : String)
  | list (items : List Document)
  /-- Values by name, in order. -/
  | fields (items : List (String × Document))

namespace Document

/-- Four hexadecimal digits after the mark of an escaped unit. -/
def escapedUnit (unit : Nat) : List Char :=
  '\\' :: 'u' :: Text.hexDigits 4 unit

/-- A character inside a quoted text: all but printable ASCII is escaped, characters beyond the
basic plane as two units. -/
def escaped (c : Char) : List Char :=
  let code := c.toNat
  if c = '"' then ['\\', '"']
  else if c = '\\' then ['\\', '\\']
  else if c = '\n' then ['\\', 'n']
  else if c = '\r' then ['\\', 'r']
  else if c = '\t' then ['\\', 't']
  else if code = 8 then ['\\', 'b']
  else if code = 12 then ['\\', 'f']
  else if 32 ≤ code && code < 127 then [c]
  else if code < 0x10000 then escapedUnit code
  else escapedUnit (0xd800 + (code - 0x10000) / 1024)
    ++ escapedUnit (0xdc00 + (code - 0x10000) % 1024)

/-- A text in double quotes. -/
def quoted (text : String) : String :=
  "\"" ++ String.ofList (text.toList.flatMap escaped) ++ "\""

/-- The start of a line at a level. -/
def lineStart (level : Nat) : String :=
  "\n" ++ String.ofList (List.replicate (2 * level) ' ')

mutual

/-- The text of a document that stands at a level. -/
def renderAt (level : Nat) : Document → String
  | null => "null"
  | truth value => if value then "true" else "false"
  | integer value => toString value
  | number value => value.decimal
  | text value => quoted value
  | list [] => "[]"
  | list (item :: items) =>
    "[" ++ lineStart (level + 1) ++ renderAt (level + 1) item ++ renderItems (level + 1) items
      ++ lineStart level ++ "]"
  | fields [] => "\x7b\x7d"
  | fields ((name, value) :: items) =>
    "\x7b" ++ lineStart (level + 1) ++ quoted name ++ ": " ++ renderAt (level + 1) value
      ++ renderFields (level + 1) items ++ lineStart level ++ "\x7d"

/-- The text of further items of a list. -/
def renderItems (level : Nat) : List Document → String
  | [] => ""
  | item :: items => "," ++ lineStart level ++ renderAt level item ++ renderItems level items

/-- The text of further fields. -/
def renderFields (level : Nat) : List (String × Document) → String
  | [] => ""
  | (name, value) :: items =>
    "," ++ lineStart level ++ quoted name ++ ": " ++ renderAt level value
      ++ renderFields level items

end

def render (document : Document) : String :=
  renderAt 0 document

end Document

end BoolTensor
