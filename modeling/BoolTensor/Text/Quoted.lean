import BoolTensor.Text.Digits
import BoolTensor.Text.Printable

/-!
# Quoted texts

A text between quotes, in one line and with printable characters only.

## Main definitions

* `quotedText`: the text in single quotes, or in double ones where that saves an escape
-/

namespace BoolTensor.Text

/-- A character inside a quoted text: the quote, the backslash and what is not printable are
escaped. -/
def quotedChar (quote c : Char) : List Char :=
  let code := c.toNat
  if c = quote || c = '\\' then ['\\', c]
  else if c = '\n' then ['\\', 'n']
  else if c = '\r' then ['\\', 'r']
  else if c = '\t' then ['\\', 't']
  else if isPrintable c then [c]
  else if code < 0x100 then '\\' :: 'x' :: hexDigits 2 code
  else if code < 0x10000 then '\\' :: 'u' :: hexDigits 4 code
  else '\\' :: 'U' :: hexDigits 8 code

/-- A text in single quotes, or in double ones where that saves an escape. -/
def quotedText (text : String) : String :=
  let quote := if text.contains '\'' && !text.contains '"' then '"' else '\''
  String.ofList (quote :: text.toList.flatMap (quotedChar quote) ++ [quote])

end BoolTensor.Text
