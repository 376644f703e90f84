import CoroutineVM.Number.Width
import CoroutineVM.Toml.Text

/-!
TOML values as text.

A string is written in the first of the four forms, from double quotes on one line to triple single
quotes, in which it needs no escape; the double-quoted forms take the strings that need one in any
case. A line break calls for a form over several lines, which then begins with a line break of its
own.
-/

namespace CoroutineVM.Toml

/-- The four forms of strings. -/
inductive TextForm where
  | basic
  | literal
  | basicLines
  | literalLines
  deriving DecidableEq, Repr

/-- The length of the longest run of a character, where `run` of them stand just before. -/
def longestRun (sought : Char) (run : Nat) : List Char → Nat
  | [] => run
  | c :: rest =>
    if c = sought then longestRun sought (run + 1) rest else max run (longestRun sought 0 rest)

/-- Whether a character is never written as it is: a control character that is neither a tab nor a
line break. -/
def needsCode (c : Char) : Bool :=
  c.toNat = 0x7f || (c.toNat < 0x20 && c ≠ '\t' && c ≠ '\n')

/-- The form that a string is written in. -/
def TextForm.ofText (text : List Char) : TextForm :=
  let lines := text.contains '\n'
  let verbatim := !text.any needsCode
  let unescaped := verbatim && !text.contains '\\'
  if unescaped && !text.contains '"' && !lines then .basic
  else if verbatim && !text.contains '\'' && !lines then .literal
  else if unescaped && longestRun '"' 0 text ≤ 2 then .basicLines
  else if verbatim && longestRun '\'' 0 text ≤ 2 then .literalLines
  else if lines then .basicLines
  else .basic

/-- The quotes on one side of a string. -/
def TextForm.quotes : TextForm → List Char
  | .basic => ['"']
  | .literal => ['\'']
  | .basicLines => ['"', '"', '"']
  | .literalLines => ['\'', '\'', '\'']

/-- An upper-case hexadecimal digit. -/
def upperHexChar (n : Nat) : Char := (Nat.digitChar (n % 16)).toUpper

/-- A character other than the quote between double quotes. -/
def writeChar (lines : Bool) (c : Char) : List Char :=
  if c = '\\' then ['\\', '\\']
  else if c = '\x08' then ['\\', 'b']
  else if c = '\t' then ['\\', 't']
  else if c = '\n' then if lines then ['\n'] else ['\\', 'n']
  else if c = '\x0c' then ['\\', 'f']
  else if c = '\r' then ['\\', 'r']
  else if needsCode c then ['\\', 'u', '0', '0', upperHexChar (c.toNat / 16), upperHexChar c.toNat]
  else [c]

/-- The characters of a string between double quotes, after `run` quotes that stand for themselves.
Over several lines two quotes in a row may do so, on one line none. -/
def writeEscaped (lines : Bool) (run : Nat) : List Char → List Char
  | [] => []
  | c :: rest =>
    if c = '"' then
      if run < (if lines then 2 else 0) then '"' :: writeEscaped lines (run + 1) rest
      else '\\' :: '"' :: writeEscaped lines 0 rest
    else writeChar lines c ++ writeEscaped lines 0 rest

/-- A string with its quotes. -/
def writeText (text : String) : List Char :=
  let characters := text.toList
  let form := TextForm.ofText characters
  let content := match form with
    | .basic => writeEscaped false 0 characters
    | .basicLines => writeEscaped true 0 characters
    | .literal | .literalLines => characters
  let opening := match form with
    | .basicLines | .literalLines => if characters.contains '\n' then ['\n'] else []
    | .basic | .literal => []
  form.quotes ++ opening ++ content ++ form.quotes

/-- A natural number, if 64 bits with a sign hold it. -/
def writeNatural? (n : Nat) : Option (List Char) :=
  if n ≤ Number.greatestInteger then some (Nat.toDigits 10 n) else none

def writeBoolean (value : Bool) : List Char :=
  if value then ['t', 'r', 'u', 'e'] else ['f', 'a', 'l', 's', 'e']

/-- The line of an entry whose value is written already. -/
def writeEntry (key : String) (value : List Char) : List Char :=
  key.toList ++ [' ', '=', ' '] ++ value ++ ['\n']

end CoroutineVM.Toml
