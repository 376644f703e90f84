import CoroutineVM.Json.Basic
import CoroutineVM.Number.Numeral
import CoroutineVM.Number.Width

/-!
The tokens of a JSON text.

A text is cut into tokens from left to right. Where the text stops being JSON the list ends in a
broken token that says what was begun and why it failed, so that the reader of the tokens can tell
whether that was the first fault of the text.
-/

namespace CoroutineVM.Json

/-- What a text is cut into. A string that cannot be joined and a numeral that stands for no number
are tokens without a content. -/
inductive Token where
  | openArray
  | closeArray
  | openObject
  | closeObject
  | comma
  | colon
  | null
  | boolean (value : Bool)
  /-- A number; `none` when it is too large for a double. -/
  | number (value : Option JsonNumber)
  /-- A string; `none` when it holds half of a surrogate pair. -/
  | text (value : Option String)
  /-- A string that is not well formed. -/
  | brokenText (fault : Fault)
  /-- A number or a name that is not well formed, or a character that begins no token. -/
  | brokenWord (fault : Fault)

/-- The four characters that may stand between tokens. -/
def isBlank (c : Char) : Bool := c = ' ' || c = '\n' || c = '\t' || c = '\r'

/-- The value of a hexadecimal digit of either case. -/
def hexDigit? (c : Char) : Option Nat :=
  if '0' ≤ c ∧ c ≤ '9' then some (c.toNat - '0'.toNat)
  else if 'a' ≤ c ∧ c ≤ 'f' then some (c.toNat - 'a'.toNat + 10)
  else if 'A' ≤ c ∧ c ≤ 'F' then some (c.toNat - 'A'.toNat + 10)
  else none

/-- The 16-bit unit that four hexadecimal digits name. -/
def hexUnit? (a b c d : Char) : Option Nat := do
  let a ← hexDigit? a
  let b ← hexDigit? b
  let c ← hexDigit? c
  let d ← hexDigit? d
  return ((a * 16 + b) * 16 + c) * 16 + d

/-- A piece of a string: a character, or a 16-bit unit named by an escape. -/
inductive Piece where
  | char (c : Char)
  | unit (code : Nat)

/-- The character that a one-letter escape stands for. -/
def simpleEscape? (c : Char) : Option Char :=
  match c with
  | '"' => some '"'
  | '\\' => some '\\'
  | '/' => some '/'
  | 'b' => some '\x08'
  | 'f' => some '\x0c'
  | 'n' => some '\n'
  | 'r' => some '\r'
  | 't' => some '\t'
  | _ => none

/-- The pieces of a string up to its closing quote, and the text after it. -/
def readPieces : List Char → Except Fault (List Piece × List Char)
  | [] => .error .truncated
  | '"' :: rest => .ok ([], rest)
  | '\\' :: 'u' :: a :: b :: c :: d :: rest =>
    match hexUnit? a b c d with
    | none => .error .malformed
    | some code => (readPieces rest).map fun (pieces, after) => (.unit code :: pieces, after)
  | '\\' :: 'u' :: _ => .error .truncated
  | ['\\'] => .error .truncated
  | '\\' :: mark :: rest =>
    match simpleEscape? mark with
    | none => .error .malformed
    | some c => (readPieces rest).map fun (pieces, after) => (.char c :: pieces, after)
  | c :: rest =>
    if c.toNat < 0x20 then .error .malformed
    else (readPieces rest).map fun (pieces, after) => (.char c :: pieces, after)

/-- Joins surrogate pairs; `none` when a half stands alone. -/
def joinPieces : List Piece → Option (List Char)
  | [] => some []
  | .char c :: rest => (joinPieces rest).map (c :: ·)
  | .unit high :: .unit low :: rest =>
    if 0xD800 ≤ high ∧ high < 0xDC00 ∧ 0xDC00 ≤ low ∧ low < 0xE000 then
      let code := 0x10000 + (high - 0xD800) * 0x400 + (low - 0xDC00)
      (joinPieces rest).map (Char.ofNat code :: ·)
    else if 0xD800 ≤ high ∧ high < 0xE000 then none
    else (joinPieces (.unit low :: rest)).map (Char.ofNat high :: ·)
  | .unit code :: rest =>
    if 0xD800 ≤ code ∧ code < 0xE000 then none
    else (joinPieces rest).map (Char.ofNat code :: ·)

/-- A string after its opening quote. -/
def readText (text : List Char) : Except Fault (Option String × List Char) :=
  (readPieces text).map fun (pieces, after) => ((joinPieces pieces).map String.ofList, after)

/-- The fault of a text in which a digit is missing before `rest`. -/
def missingDigit (rest : List Char) : Fault :=
  if rest.isEmpty then .truncated else .malformed

/-- The digits before the point: a single zero, or digits that do not start with one. -/
def readWhole (text : List Char) : Except Fault (List Char × List Char) :=
  let (digits, rest) := Number.spanDigits text
  match digits with
  | [] => .error (missingDigit rest)
  | '0' :: _ :: _ => .error .malformed
  | digits => .ok (digits, rest)

/-- A point with at least one digit after it, if the text goes on with one. -/
def readFraction (text : List Char) : Except Fault (Option (List Char) × List Char) :=
  match text with
  | '.' :: rest =>
    let (digits, rest) := Number.spanDigits rest
    if digits.isEmpty then .error (missingDigit rest) else .ok (some digits, rest)
  | rest => .ok (none, rest)

/-- An exponent with at least one digit, if the text goes on with one. -/
def readExponent (text : List Char) : Except Fault (Option Int × List Char) :=
  match text with
  | mark :: rest =>
    if mark = 'e' ∨ mark = 'E' then
      let (negative, rest) := match rest with
        | '-' :: rest => (true, rest)
        | '+' :: rest => (false, rest)
        | rest => (false, rest)
      let (digits, rest) := Number.spanDigits rest
      if digits.isEmpty then .error (missingDigit rest)
      else
        let exponent := Nat.ofDigitChars 10 digits 0
        .ok (some (if negative then -(exponent : Int) else exponent), rest)
    else .ok (none, text)
  | [] => .ok (none, [])

/-- The number that a numeral stands for: an integer where it is written as one and fits 64 bits,
otherwise a double. A negative zero is a double. -/
def numberOf (negative : Bool) (whole : List Char) (fraction : Option (List Char))
    (exponent : Option Int) : Option JsonNumber :=
  let size := Nat.ofDigitChars 10 whole 0
  if fraction.isNone ∧ exponent.isNone ∧ negative = false ∧ size ≤ Number.greatestNatural then
    some (.natural size)
  else if fraction.isNone ∧ exponent.isNone ∧ negative = true ∧ 0 < size ∧
      size ≤ Number.greatestInteger + 1 then
    some (.negative size)
  else
    let numeral : Number.Numeral := ⟨whole, fraction.getD [], exponent.getD 0⟩
    numeral.scaled?.map fun x => .real (if negative then -x else x)

/-- A number and the text after it. -/
def readNumber (text : List Char) : Except Fault (Option JsonNumber × List Char) := do
  let (negative, text) := match text with
    | '-' :: rest => (true, rest)
    | rest => (false, rest)
  let (whole, text) ← readWhole text
  let (fraction, text) ← readFraction text
  let (exponent, text) ← readExponent text
  return (numberOf negative whole fraction exponent, text)

/-- The text after the expected characters. -/
def expectChars : List Char → List Char → Except Fault (List Char)
  | [], text => .ok text
  | _ :: _, [] => .error .truncated
  | expected :: more, c :: rest =>
    if c = expected then expectChars more rest else .error .malformed

/-- The token that a single character is. -/
def punctuation? (c : Char) : Option Token :=
  match c with
  | '[' => some .openArray
  | ']' => some .closeArray
  | '\x7b' => some .openObject
  | '\x7d' => some .closeObject
  | ',' => some .comma
  | ':' => some .colon
  | _ => none

/-- The token that starts with a character which is neither blank nor punctuation, and the text
after it. -/
def readLonger (c : Char) (rest : List Char) : Except Token (Token × List Char) :=
  if c = '"' then
    match readText rest with
    | .ok (text, after) => .ok (.text text, after)
    | .error fault => .error (.brokenText fault)
  else
    let word : Except Fault (Token × List Char) :=
      if c = 't' then (expectChars ['r', 'u', 'e'] rest).map (.boolean true, ·)
      else if c = 'f' then (expectChars ['a', 'l', 's', 'e'] rest).map (.boolean false, ·)
      else if c = 'n' then (expectChars ['u', 'l', 'l'] rest).map (.null, ·)
      else if c = '-' ∨ c.isDigit then
        (readNumber (c :: rest)).map fun (value, after) => (.number value, after)
      else .error .malformed
    match word with
    | .ok found => .ok found
    | .error fault => .error (.brokenWord fault)

/-- The tokens of a text of at most `budget` characters. -/
def tokensWithin : Nat → List Char → List Token
  | 0, _ => []
  | _ + 1, [] => []
  | budget + 1, c :: rest =>
    if isBlank c then tokensWithin budget rest
    else match punctuation? c with
      | some token => token :: tokensWithin budget rest
      | none =>
        match readLonger c rest with
        | .ok (token, after) => token :: tokensWithin budget after
        | .error broken => [broken]

/-- The tokens of a text. Each token takes at least one character, so its length bounds them. -/
def tokens (text : List Char) : List Token := tokensWithin text.length text

end CoroutineVM.Json
