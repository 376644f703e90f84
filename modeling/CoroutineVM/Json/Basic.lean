/-!
JSON values as they are read from a text.

Objects keep their members in order, repeated names included, because whether a repeated name is a
fault depends on who reads the object. A text may follow the grammar and still stand for no value:
a number too large for a double, or a string with half of a surrogate pair. Such a part is kept as
`unsound`, so that a reader that skips it does not have to reject it.
-/

namespace CoroutineVM

/-- A number as chunk text distinguishes them: integers that fit 64 bits, and doubles. -/
inductive JsonNumber where
  | natural (value : Nat)
  | negative (size : Nat)
  | real (value : Float)

/-- A JSON value. Members of an object are in the order of the text, and a name may occur several
times. -/
inductive Json where
  | null
  | boolean (value : Bool)
  | number (value : JsonNumber)
  | string (value : String)
  | array (items : List Json)
  | object (members : List (String × Json))
  | unsound
  deriving Inhabited

/-- Why a text could not be read. -/
inductive Fault where
  /-- The text ends too early. -/
  | truncated
  /-- The text is not JSON. -/
  | malformed
  /-- The text is JSON of the wrong shape. -/
  | misshapen
  deriving DecidableEq, Repr

namespace Json

/-- Whether the value has no unsound part and is nested at most `depth` containers deep. -/
def fits (depth : Nat) : Json → Bool
  | .null | .boolean _ | .number _ | .string _ => true
  | .unsound => false
  | .array items =>
    match depth with
    | 0 => false
    | depth + 1 => itemsFit depth items
  | .object members =>
    match depth with
    | 0 => false
    | depth + 1 => membersFit depth members
where
  /-- Every item fits. -/
  itemsFit (depth : Nat) : List Json → Bool
    | [] => true
    | item :: rest => fits depth item && itemsFit depth rest
  /-- Every member's value fits. -/
  membersFit (depth : Nat) : List (String × Json) → Bool
    | [] => true
    | (_, value) :: rest => fits depth value && membersFit depth rest

/-- Values nested deeper than this are refused where they are read in full. -/
def greatestDepth : Nat := 127

/-- The members' values under this name, in order. -/
def valuesAt (name : String) (members : List (String × Json)) : List Json :=
  members.filterMap fun member => if member.1 = name then some member.2 else none

/-- The value that an object reader finds under a name; of repeated members the last one counts. -/
def member? (value : Json) (name : String) : Option Json :=
  match value with
  | .object members => (valuesAt name members).getLast?
  | _ => none

end Json

end CoroutineVM
