import CoroutineVM.Number.Numeral
import CoroutineVM.Number.Width
import CoroutineVM.Toml.Basic
import CoroutineVM.Json.Token

/-!
TOML values that are written as one word: booleans, integers, floating-point numbers, dates and
times.

Underscores may separate the digits of a number but not begin or end them. A date and a time may be
joined by a space, so that a word may have to be read together with the next one; dates are checked
against the calendar and kept in the usual spelling.
-/

namespace CoroutineVM.Toml

/-- The characters of words. -/
def isWordChar (c : Char) : Bool :=
  c.isAlphanum || c = '+' || c = '-' || c = '_' || c = '.' || c = ':'

/-- The digits of a number, without the underscores between them. -/
def separatedDigits? (isDigit : Char → Bool) (text : List Char) : Option (List Char) :=
  match text with
  | [] => none
  | [digit] => if isDigit digit then some [digit] else none
  | digit :: '_' :: rest =>
    if isDigit digit then (separatedDigits? isDigit rest).map (digit :: ·) else none
  | digit :: rest =>
    if isDigit digit then (separatedDigits? isDigit rest).map (digit :: ·) else none

/-- The decimal digits of a whole number: a single zero, or digits that do not start with one. -/
def wholeDigits? (text : List Char) : Option (List Char) :=
  match separatedDigits? Char.isDigit text with
  | some ('0' :: _ :: _) => none
  | found => found

/-- The value of an unsigned integer with a mark for its base, which is sixteen, eight or two. -/
def based? : List Char → Option Nat
  | '0' :: mark :: rest => do
    let base ←
      if mark = 'x' then some 16 else if mark = 'o' then some 8
      else if mark = 'b' then some 2 else none
    let isDigit (c : Char) : Bool := (Json.hexDigit? c).any (· < base)
    let digits ← separatedDigits? isDigit rest
    return digits.foldl (fun value digit => base * value + (Json.hexDigit? digit).getD 0) 0
  | _ => none

/-- The sign of a number, if it has one, and what follows it. -/
def splitSign : List Char → List Char × List Char
  | '-' :: rest => (['-'], rest)
  | '+' :: rest => ([], rest)
  | rest => ([], rest)

/-- An integer; one that 64 bits do not hold is a mistake. -/
def integer? (word : List Char) : Option Int := do
  let value ← match based? word with
    | some value => some (value : Int)
    | none =>
      let (sign, rest) := splitSign word
      (wholeDigits? rest).bind fun digits => Number.readInteger? (sign ++ digits)
  if Number.fitsInteger value then some value else none

/-- The exponent of a floating-point number without the underscores in it; no text is no
exponent. -/
def exponentPart? : List Char → Option (List Char)
  | [] => some []
  | mark :: rest =>
    if mark = 'e' ∨ mark = 'E' then
      let (sign, rest) := splitSign rest
      (separatedDigits? Char.isDigit rest).map fun digits => 'e' :: (sign ++ digits)
    else none

/-- The fraction and the exponent of a floating-point number without the underscores in them. -/
def fractionPart? : List Char → Option (List Char)
  | '.' :: rest => do
    let (fraction, rest) := rest.span (fun c => c.isDigit || c = '_')
    let fraction ← separatedDigits? Char.isDigit fraction
    let exponent ← exponentPart? rest
    return '.' :: (fraction ++ exponent)
  | rest => if rest.isEmpty then none else exponentPart? rest

/-- A floating-point number. One that is too large is a mistake only above zero. -/
def real? (word : List Char) : Option Float := do
  let (sign, rest) := splitSign word
  if rest = ['i', 'n', 'f'] ∨ rest = ['n', 'a', 'n'] then Number.ofText? (sign ++ rest)
  else
    let (whole, rest) := rest.span (fun c => c.isDigit || c = '_')
    let whole ← wholeDigits? whole
    let rest ← fractionPart? rest
    let value ← Number.ofText? (sign ++ whole ++ rest)
    if value.isInf && sign.isEmpty then none else some value

/-- The value of so many decimal digits within bounds, and the text after them. -/
def boundedDigits? (count least greatest : Nat) (text : List Char) :
    Option (Nat × List Char) :=
  let digits := text.take count
  let value := Nat.ofDigitChars 10 digits 0
  if digits.length = count ∧ digits.all Char.isDigit ∧ least ≤ value ∧ value ≤ greatest then
    some (value, text.drop count)
  else none

/-- The text after an expected character. -/
def expect? (c : Char) : List Char → Option (List Char)
  | first :: rest => if first = c then some rest else none
  | [] => none

def isLeapYear (year : Nat) : Bool := year % 4 = 0 && (year % 100 ≠ 0 || year % 400 = 0)

def daysOf (year month : Nat) : Nat :=
  if month = 2 then if isLeapYear year then 29 else 28
  else if month = 4 ∨ month = 6 ∨ month = 9 ∨ month = 11 then 30
  else 31

/-- A date of the calendar and the text after it. -/
def date? (text : List Char) : Option (List Char × List Char) := do
  let (year, rest) ← boundedDigits? 4 0 9999 text
  let (month, rest) ← boundedDigits? 2 1 12 (← expect? '-' rest)
  let (_, rest) ← boundedDigits? 2 1 (daysOf year month) (← expect? '-' rest)
  return (text.take 10, rest)

/-- A fraction of a second as it is kept: nine digits at most, and no zeros at its end. -/
def keptFraction (digits : List Char) : List Char :=
  let kept := ((digits.take 9).reverse.dropWhile (· = '0')).reverse
  if kept.isEmpty then [] else '.' :: kept

/-- A time of the day and the text after it. A minute may have a leap second. -/
def time? (text : List Char) : Option (List Char × List Char) := do
  let (_, rest) ← boundedDigits? 2 0 23 text
  let (_, rest) ← boundedDigits? 2 0 59 (← expect? ':' rest)
  let (_, rest) ← boundedDigits? 2 0 60 (← expect? ':' rest)
  match rest with
  | '.' :: fraction =>
    let (digits, rest) := fraction.span Char.isDigit
    if digits.isEmpty then none else some (text.take 8 ++ keptFraction digits, rest)
  | rest => some (text.take 8, rest)

/-- The distance of a time from the universal one, which must be the rest of the word. -/
def offset? : List Char → Option (List Char)
  | [] => some []
  | ['Z'] | ['z'] => some ['Z']
  | sign :: rest => do
    if sign = '+' ∨ sign = '-' then
      let (hours, after) ← boundedDigits? 2 0 23 rest
      let (minutes, after) ← boundedDigits? 2 0 59 (← expect? ':' after)
      if after.isEmpty then
        some ((if hours = 0 ∧ minutes = 0 then '+' else sign) :: rest.take 5)
      else none
    else none

/-- The rest of a word after a date: nothing, or a time with its offset. -/
def timeAfterDate? : List Char → Option (List Char)
  | [] => some []
  | mark :: rest => do
    if mark = 'T' ∨ mark = 't' ∨ mark = ' ' then
      let (time, rest) ← time? rest
      return 'T' :: (time ++ (← offset? rest))
    else none

/-- A date, a time or both. -/
def moment? (word : List Char) : Option String :=
  match date? word with
  | some (date, rest) => (timeAfterDate? rest).map fun time => String.ofList (date ++ time)
  | none =>
    match time? word with
    | some (time, []) => some (String.ofList time)
    | _ => none

/-- The value that a word stands for. -/
def ofWord? (word : List Char) : Option Toml :=
  if word = ['t', 'r', 'u', 'e'] then some (.boolean true)
  else if word = ['f', 'a', 'l', 's', 'e'] then some (.boolean false)
  else ((moment? word).map .moment).or
    (((integer? word).map .integer).or ((real? word).map .real))

/-- The word that a text begins with, and the text after it. A date takes in the word after a space
if that begins like a time. -/
def spanWord (text : List Char) : List Char × List Char :=
  let (word, rest) := text.span isWordChar
  match rest with
  | ' ' :: more =>
    if (date? word).any (·.2.isEmpty) && (more.take 2).all Char.isDigit && 2 ≤ more.length then
      let (next, rest) := more.span isWordChar
      (word ++ ' ' :: next, rest)
    else (word, rest)
  | rest => (word, rest)

/-- A value that is written as one word, and the text after it. -/
def readWord (text : List Char) : Option (Toml × List Char) :=
  let (word, rest) := spanWord text
  (ofWord? word).map (·, rest)

end CoroutineVM.Toml
