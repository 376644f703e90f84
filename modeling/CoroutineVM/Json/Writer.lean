import CoroutineVM.Json.Basic
import CoroutineVM.Number.Text

/-!
Values as compact JSON text.

Strings escape the quote, the backslash and the control characters below the space, the common ones
by a letter and the others by four hexadecimal digits; every other character stands for itself.
-/

namespace CoroutineVM.Json

/-- A lower-case hexadecimal digit. -/
def hexChar (n : Nat) : Char := Nat.digitChar (n % 16)

/-- A character inside a string. -/
def writeChar (c : Char) : List Char :=
  if c = '"' then ['\\', '"']
  else if c = '\\' then ['\\', '\\']
  else if c = '\x08' then ['\\', 'b']
  else if c = '\t' then ['\\', 't']
  else if c = '\n' then ['\\', 'n']
  else if c = '\x0c' then ['\\', 'f']
  else if c = '\r' then ['\\', 'r']
  else if c.toNat < 0x20 then
    ['\\', 'u', '0', '0', hexChar (c.toNat / 16), hexChar c.toNat]
  else [c]

/-- A string with its quotes. -/
def writeText (text : String) : List Char :=
  '"' :: (text.toList.flatMap writeChar ++ ['"'])

/-- A number; a double that is not finite has no JSON form and is written as `null`. -/
def writeNumber : JsonNumber → List Char
  | .natural n => Nat.toDigits 10 n
  | .negative n => '-' :: Nat.toDigits 10 n
  | .real x =>
    if x.isFinite then Number.writeFinite .chunkText x else ['n', 'u', 'l', 'l']

/-- The text of a value, without blanks. An unsound part, which no value written by this library
has, is written as `null`. -/
def write : Json → List Char
  | .null | .unsound => ['n', 'u', 'l', 'l']
  | .boolean true => ['t', 'r', 'u', 'e']
  | .boolean false => ['f', 'a', 'l', 's', 'e']
  | .number value => writeNumber value
  | .string value => writeText value
  | .array items => '[' :: (writeItems items ++ [']'])
  | .object members => '\x7b' :: (writeMembers members ++ ['\x7d'])
where
  /-- The items, separated by commas. -/
  writeItems : List Json → List Char
    | [] => []
    | [item] => write item
    | item :: rest => write item ++ ',' :: writeItems rest
  /-- The members, separated by commas. -/
  writeMembers : List (String × Json) → List Char
    | [] => []
    | [(name, value)] => writeText name ++ ':' :: write value
    | (name, value) :: rest => writeText name ++ ':' :: (write value ++ ',' :: writeMembers rest)

/-- The text of a value. -/
def render (value : Json) : String := String.ofList value.write

end CoroutineVM.Json
