import CoroutineVM.Toml.Text
import CoroutineVM.Toml.Word

/-!
TOML documents.

A document is a list of lines that say something: the headers, each of which moves to a table, and
the entries, each of which puts a value under a key of that table. The text is first read into such
statements and these are then carried out on the root table.
-/

namespace CoroutineVM.Toml

/-- What a line of a document says. -/
inductive Statement where
  /-- Entries from here on belong to the table at this path. -/
  | table (path : List String) (key : String)
  /-- Entries from here on belong to a new last table of the array at this path. -/
  | element (path : List String) (key : String)
  | entry (path : List String) (value : Toml)

/-- Containers nested deeper than this are refused, and so are keys of more parts. -/
def greatestDepth : Nat := 79

/-! ### Keys -/

/-- The characters of keys without quotes. -/
def isKeyChar (c : Char) : Bool := c.isAlphanum || c = '_' || c = '-'

def skipBlanks (text : List Char) : List Char := text.dropWhile isBlank

/-- One part of a key. -/
def readKeyPart (text : List Char) : Option (String × List Char) :=
  match readLineText text with
  | some found => some found
  | none =>
    let (name, rest) := text.span isKeyChar
    if name.isEmpty then none else some (String.ofList name, rest)

/-- A key of at most `budget` parts with the blanks around it. -/
def readKey : Nat → List Char → Option (List String × List Char)
  | 0, _ => none
  | budget + 1, text => do
    let (part, rest) ← readKeyPart (skipBlanks text)
    match skipBlanks rest with
    | '.' :: rest => (readKey budget rest).map fun (parts, after) => (part :: parts, after)
    | rest => some ([part], rest)

/-! ### Values -/

/-- The text after blanks, line breaks and comments. -/
def skipLines (inComment : Bool) : List Char → List Char
  | [] => []
  | c :: rest =>
    if inComment && isPlain c then skipLines true rest
    else if isBlank c || c = '\n' then skipLines false rest
    else if c = '\r' && rest.head? = some '\n' then skipLines false rest
    else if c = '#' then skipLines true rest
    else c :: rest

/-- A value that contains no others. -/
def readScalar (text : List Char) : Option (Toml × List Char) :=
  match text with
  | '"' :: _ | '\'' :: _ => (readText text).map fun (value, after) => (.string value, after)
  | text => readWord text

/-- The items of an array after its opening bracket, at most `budget` of them. A comma may stand
after the last one. -/
def readItems (readItem : List Char → Option (Toml × List Char)) :
    Nat → List Char → Option (List Toml × List Char)
  | 0, _ => none
  | budget + 1, text =>
    match skipLines false text with
    | ']' :: rest => some ([], rest)
    | text => do
      let (item, rest) ← readItem text
      match skipLines false rest with
      | ',' :: rest =>
        (readItems readItem budget rest).map fun (items, after) => (item :: items, after)
      | ']' :: rest => some ([item], rest)
      | _ => none

/-- A key, the sign after it and a value. -/
def readEntry (readItem : List Char → Option (Toml × List Char)) (text : List Char) :
    Option (List String × Toml × List Char) := do
  let (path, rest) ← readKey greatestDepth text
  let (value, rest) ← readItem (skipBlanks (← expect? '=' rest))
  return (path, value, rest)

/-- The entries of a table after its opening brace, at most `budget` of them, added to those that it
has. All stand on one line. -/
def readBraced (readItem : List Char → Option (Toml × List Char)) :
    Nat → Entries → List Char → Option (Entries × List Char)
  | 0, _, _ => none
  | budget + 1, entries, text => do
    let (path, value, rest) ← readEntry readItem text
    let entries ← entries.insert path value
    match skipBlanks rest with
    | ',' :: rest => readBraced readItem budget entries rest
    | '\x7d' :: rest => some (entries, rest)
    | _ => none

/-- A value with at most `depth` containers inside each other. -/
def readValue : Nat → List Char → Option (Toml × List Char)
  | 0, text => readScalar text
  | depth + 1, text =>
    match text with
    | '[' :: rest =>
      (readItems (readValue depth) text.length rest).map fun (items, after) => (.array items, after)
    | '\x7b' :: rest =>
      match skipBlanks rest with
      | '\x7d' :: after => some (.table .braced [], after)
      | rest =>
        (readBraced (readValue depth) text.length [] rest).map fun (entries, after) =>
          (.table .braced entries, after)
    | text => readScalar text

/-! ### Lines -/

/-- The text after the end of a line, before which only blanks and a comment may stand. -/
def endLine (text : List Char) : Option (List Char) :=
  let rest := match skipBlanks text with
    | '#' :: rest => rest.dropWhile isPlain
    | rest => rest
  match rest with
  | [] => some []
  | rest => lineBreak? rest

/-- The path and the last part of a key. -/
def splitKey : List String → Option (List String × String)
  | [] => none
  | [key] => some ([], key)
  | part :: rest => (splitKey rest).map fun (path, key) => (part :: path, key)

/-- The header or the entry that a text begins with. -/
def readStatement (text : List Char) : Option (Statement × List Char) := do
  match text with
  | '[' :: '[' :: rest =>
    let (parts, rest) ← readKey greatestDepth rest
    let (path, key) ← splitKey parts
    return (.element path key, ← expect? ']' (← expect? ']' rest))
  | '[' :: rest =>
    let (parts, rest) ← readKey greatestDepth rest
    let (path, key) ← splitKey parts
    return (.table path key, ← expect? ']' rest)
  | text =>
    let (path, value, rest) ← readEntry (readValue greatestDepth) text
    return (.entry path value, rest)

/-- The statements of a text of less than `budget` characters. -/
def readStatements : Nat → List Char → Option (List Statement)
  | 0, _ => none
  | budget + 1, text =>
    match skipBlanks text with
    | [] => some []
    | text =>
      match endLine text with
      | some rest => readStatements budget rest
      | none => do
        let (statement, rest) ← readStatement text
        (readStatements budget (← endLine rest)).map (statement :: ·)

/-! ### Documents -/

/-- Carries out statements on a root table, starting in the table at `header`. -/
def Entries.carryOut (header : List String) (root : Entries) : List Statement → Option Entries
  | [] => some root
  | .table path key :: rest => do
    carryOut (path ++ [key]) (← root.openTable path key) rest
  | .element path key :: rest => do
    carryOut (path ++ [key]) (← root.openElement path key) rest
  | .entry path value :: rest => do
    carryOut header (← root.within header (Entries.insert path value)) rest

/-- The root table of a document, which may begin with a byte order mark. -/
def read (text : String) : Option Entries := do
  let text := match text.toList with
    | '\ufeff' :: rest => rest
    | rest => rest
  Entries.carryOut [] [] (← readStatements (text.length + 1) text)

end CoroutineVM.Toml
