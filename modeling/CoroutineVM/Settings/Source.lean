import CoroutineVM.Folder
import CoroutineVM.Json.Reader
import CoroutineVM.Number.Text
import CoroutineVM.Toml.Document

/-!
Where the values of settings come from: a file and the environment.

Either gives values by name. The names are compared without regard to case, and a name that no
setting has does no harm. What kind of value a setting wants is not known here; a value is converted
only when a setting takes it, as `toNatural?`, `toBoolean?` and `toText?` say.
-/

namespace CoroutineVM

/-- A value as a source gives it. -/
inductive RawValue where
  | boolean (value : Bool)
  | integer (value : Int)
  | real (value : Float)
  | text (value : String)
  /-- Nothing, a list or a table, none of which is a setting. -/
  | composite

namespace RawValue

/-- What a word for yes or no means. -/
def ofYesNo? (word : String) : Option Bool :=
  if word = "true" ∨ word = "on" ∨ word = "yes" then some true
  else if word = "false" ∨ word = "off" ∨ word = "no" then some false
  else none

/-- A natural number of 64 bits: yes and no count as one and zero, and a number that is not whole is
rounded. A negative integer has no conversion. -/
def toNatural? : RawValue → Option Nat
  | .boolean value => some value.toNat
  | .integer value => if 0 ≤ value then some value.toNat else none
  | .real value => some (Number.toNatural value)
  | .text value =>
    match ofYesNo? value.toLower with
    | some yes => some yes.toNat
    | none => (Number.readNatural? value.toList).filter (· ≤ Number.greatestNatural)
  | .composite => none

/-- Yes or no: every number but zero is yes. -/
def toBoolean? : RawValue → Option Bool
  | .boolean value => some value
  | .integer value => some (value != 0)
  | .real value => some (value != 0)
  | .text value =>
    if value = "1" then some true else if value = "0" then some false else ofYesNo? value.toLower
  | .composite => none

/-- The text of a value. -/
def toText? : RawValue → Option String
  | .boolean value => some (if value then "true" else "false")
  | .integer value =>
    some (String.ofList ((if value < 0 then ['-'] else []) ++ Nat.toDigits 10 value.natAbs))
  | .real value => some (String.ofList (Number.plain value))
  | .text value => some value
  | .composite => none

/-- A text of the environment stands for a boolean, an integer or a number if it reads as one. -/
def ofVariable (text : String) : RawValue :=
  let lower := text.toLower
  if lower = "true" then .boolean true
  else if lower = "false" then .boolean false
  else match (Number.readInteger? text.toList).filter Number.fitsInteger with
    | some value => .integer value
    | none =>
      match Number.ofText? text.toList with
      | some value => .real value
      | none => .text text

def ofToml : Toml → RawValue
  | .boolean value => .boolean value
  | .integer value => .integer value
  | .real value => .real value
  | .string value | .moment value => .text value
  | .array _ | .table _ _ | .tables _ => .composite

/-- A value of a JSON file; an integer that does not fit 64 bits with a sign is a number. -/
def ofJson : Json → RawValue
  | .boolean value => .boolean value
  | .number (.natural value) =>
    if value ≤ Number.greatestInteger then .integer value else .real (Float.ofNat value)
  | .number (.negative size) => .integer (-(size : Int))
  | .number (.real value) => .real value
  | .string value => .text value
  | .null | .array _ | .object _ | .unsound => .composite

end RawValue

/-- The values that one source gives, by name. -/
abbrev Layer := List (String × RawValue)

namespace Layer

/-- The value under a name, which is in lower case; the last one counts. -/
def get? (layer : Layer) (name : String) : Option RawValue :=
  (layer.reverse.find? (·.1.toLower = name)).map (·.2)

/-- What the names of variables begin with, in lower case. -/
def variablePrefix : String := "lune_"

/-- The values that the environment gives. -/
def ofEnvironment (environment : List (String × String)) : Layer :=
  environment.filterMap fun (name, text) =>
    let name := name.toLower
    if name.startsWith variablePrefix then
      some (String.ofList (name.toList.drop variablePrefix.length), .ofVariable text)
    else none

end Layer

/-- The formats that a file with settings may have. -/
inductive FileFormat where
  | toml
  | json
  deriving DecidableEq, Repr

namespace FileFormat

/-- The ending of the names of files in a format. -/
def ending : FileFormat → String
  | .toml => "toml"
  | .json => "json"

/-- The format of a file, which its name tells: what follows the last point, if something is before
that point. -/
def ofPath? (path : String) : Option FileFormat :=
  match ((Folder.parts path).getLast?.getD "").splitOn "." with
  | [] | [_] | ["", _] => none
  | parts => [toml, json].find? fun format => parts.getLast? = some format.ending

/-- The values in a text; nothing if it does not follow the format. -/
def layer? : FileFormat → String → Option Layer
  | .toml, text =>
    (Toml.read text).map fun entries => entries.map fun (key, value) => (key, .ofToml value)
  | .json, text =>
    match Json.readSound text with
    | .ok (.object members) => some (members.map fun (name, value) => (name, .ofJson value))
    | _ => none

end FileFormat

/-- The file that a path means, with its format: the file at the path itself, otherwise the one that
has an ending more. A file in no known format is not found. -/
def Folder.settingsFile? (folder : Folder) (path : String) : Option (FileFormat × String) :=
  match folder.read path with
  | .ok text => (FileFormat.ofPath? path).map (·, text)
  | .error _ =>
    if path.isEmpty then none
    else [FileFormat.toml, FileFormat.json].findSome? fun format =>
      (folder.read (path ++ "." ++ format.ending)).toOption.map (format, ·)

end CoroutineVM
