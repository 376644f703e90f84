import CoroutineVM.Json.Token

/-!
TOML strings as they are written in a document.

There are four forms. Between single quotes every character stands for itself; between double quotes
a backslash begins an escape. With three quotes on both sides a string may span lines: a line break
right after the opening quotes is not part of it, and up to two quotes may stand beside the closing
ones.
-/

namespace CoroutineVM.Toml

/-- The two characters that may stand between the parts of a line. -/
def isBlank (c : Char) : Bool := c = ' ' || c = '\t'

/-- Whether a character may stand for itself in strings and comments: no control characters but
the tab. -/
def isPlain (c : Char) : Bool := c = '\t' || (0x20 ≤ c.toNat && c.toNat ≠ 0x7f)

/-- The text after the line break that it begins with. -/
def lineBreak? : List Char → Option (List Char)
  | '\n' :: rest => some rest
  | '\r' :: '\n' :: rest => some rest
  | _ => none

/-- The text without a line break at its beginning. -/
def dropLineBreak (text : List Char) : List Char := (lineBreak? text).getD text

/-- The value of a string of hexadecimal digits. -/
def hexValue? (digits : List Char) : Option Nat :=
  digits.foldlM (fun value digit => (Json.hexDigit? digit).map (16 * value + ·)) 0

/-- The character that so many hexadecimal digits name, and the text after them. -/
def readCode (count : Nat) (text : List Char) : Option (Char × List Char) := do
  let digits := text.take count
  let code ← hexValue? digits
  if digits.length = count ∧ code.isValidChar then some (Char.ofNat code, text.drop count)
  else none

/-- The character that an escape stands for, without its backslash, and the text after it. -/
def readEscape : List Char → Option (Char × List Char)
  | [] => none
  | mark :: rest =>
    match mark with
    | '"' => some ('"', rest)
    | '\\' => some ('\\', rest)
    | 'b' => some ('\x08', rest)
    | 'f' => some ('\x0c', rest)
    | 'n' => some ('\n', rest)
    | 'r' => some ('\r', rest)
    | 't' => some ('\t', rest)
    | 'u' => readCode 4 rest
    | 'U' => readCode 8 rest
    | _ => none

/-- The rest of a string between double quotes of at most `budget` characters. -/
def readBasic : Nat → List Char → Option (List Char × List Char)
  | 0, _ => none
  | budget + 1, text =>
    match text with
    | [] => none
    | '"' :: rest => some ([], rest)
    | '\\' :: rest => do
      let (c, rest) ← readEscape rest
      (readBasic budget rest).map fun (more, after) => (c :: more, after)
    | c :: rest =>
      if isPlain c then (readBasic budget rest).map fun (more, after) => (c :: more, after)
      else none

/-- The rest of a string between single quotes. -/
def readLiteral : List Char → Option (List Char × List Char)
  | [] => none
  | '\'' :: rest => some ([], rest)
  | c :: rest =>
    if isPlain c then (readLiteral rest).map fun (more, after) => (c :: more, after) else none

/-- The quotes that stand beside the closing ones, and the text after these, where a string over
several lines ends. -/
def readClosing (quote : Char) (text : List Char) : Option (List Char × List Char) :=
  let quotes := (text.takeWhile (· = quote)).length
  if 3 ≤ quotes then
    let inside := min (quotes - 3) 2
    some (List.replicate inside quote, text.drop (inside + 3))
  else none

/-- Whether only blanks stand before the next line break. -/
def endsLine (text : List Char) : Bool := (lineBreak? (text.dropWhile isBlank)).isSome

/-- The rest of a string between triple double quotes of at most `budget` characters. A backslash at
the end of a line drops the line break and all blanks and line breaks after it, which is what
`skipping` is for. -/
def readBasicLines : Nat → Bool → List Char → Option (List Char × List Char)
  | 0, _, _ => none
  | budget + 1, skipping, text =>
    match readClosing '"' text with
    | some found => some found
    | none =>
      match lineBreak? text with
      | some rest =>
        if skipping then readBasicLines budget true rest
        else (readBasicLines budget false rest).map fun (more, after) => ('\n' :: more, after)
      | none =>
        match text with
        | [] => none
        | '\\' :: rest =>
          if endsLine rest then readBasicLines budget true rest
          else do
            let (c, rest) ← readEscape rest
            (readBasicLines budget false rest).map fun (more, after) => (c :: more, after)
        | c :: rest =>
          if skipping && isBlank c then readBasicLines budget true rest
          else if isPlain c then
            (readBasicLines budget false rest).map fun (more, after) => (c :: more, after)
          else none

/-- The rest of a string between triple single quotes of at most `budget` characters. -/
def readLiteralLines : Nat → List Char → Option (List Char × List Char)
  | 0, _ => none
  | budget + 1, text =>
    match readClosing '\'' text with
    | some found => some found
    | none =>
      match lineBreak? text with
      | some rest => (readLiteralLines budget rest).map fun (more, after) => ('\n' :: more, after)
      | none =>
        match text with
        | [] => none
        | c :: rest =>
          if isPlain c then
            (readLiteralLines budget rest).map fun (more, after) => (c :: more, after)
          else none

/-- A string on one line, if the text begins with one. -/
def readLineText (text : List Char) : Option (String × List Char) :=
  let found := match text with
    | '"' :: rest => readBasic text.length rest
    | '\'' :: rest => readLiteral rest
    | _ => none
  found.map fun (content, after) => (String.ofList content, after)

/-- A string of any form, if the text begins with one. -/
def readText (text : List Char) : Option (String × List Char) :=
  match text with
  | '"' :: '"' :: '"' :: rest =>
    (readBasicLines text.length false (dropLineBreak rest)).map fun (content, after) =>
      (String.ofList content, after)
  | '\'' :: '\'' :: '\'' :: rest =>
    (readLiteralLines text.length (dropLineBreak rest)).map fun (content, after) =>
      (String.ofList content, after)
  | text => readLineText text

end CoroutineVM.Toml
