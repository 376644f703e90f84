/-!
TOML values, and the tables that a document is made of.

A table remembers how it came about, because that decides what a later line of the document may
still add to it. Keys keep their order; no table has a key twice.
-/

namespace CoroutineVM

/-- How a table came about. -/
inductive TableForm where
  /-- Written out between braces; complete as it is. -/
  | braced
  /-- Opened by a header of its own. -/
  | headed
  /-- Implied by the header of a table inside it, and not opened so far. -/
  | implied
  /-- Implied by a dotted key. -/
  | dotted
  deriving DecidableEq, Repr

/-- A value of a settings file. -/
inductive Toml where
  | boolean (value : Bool)
  | integer (value : Int)
  | real (value : Float)
  | string (value : String)
  /-- A date, a time or both, in the usual spelling. -/
  | moment (value : String)
  | array (items : List Toml)
  | table (form : TableForm) (entries : List (String × Toml))
  /-- The tables of an array that is given by headers, the last one first. -/
  | tables (elements : List (List (String × Toml)))

namespace Toml

/-- The entries of a table, in order. -/
abbrev Entries := List (String × Toml)

namespace Entries

def get? (entries : Entries) (key : String) : Option Toml := entries.lookup key

/-- The entries with another value under a key that they have. -/
def replace (entries : Entries) (key : String) (value : Toml) : Entries :=
  entries.map fun entry => if entry.1 = key then (key, value) else entry

/-- The entries with one more at their end. -/
def add (entries : Entries) (key : String) (value : Toml) : Entries := entries ++ [(key, value)]

/-- Whether a dotted key may pass through a table, or end in it. -/
def admitsDotted (ending : Bool) : TableForm → Bool
  | .dotted => true
  | .implied => !ending
  | .headed | .braced => false

/-- Puts a value under a dotted key. A key has one value, and a dotted key adds to no table that was
opened by a header or written out. -/
def insert : List String → Toml → Entries → Option Entries
  | [], _, _ => none
  | [key], value, entries =>
    match entries.get? key with
    | none => some (entries.add key value)
    | some _ => none
  | key :: next :: path, value, entries =>
    match entries.get? key with
    | none =>
        (insert (next :: path) value []).map fun inner => entries.add key (.table .dotted inner)
    | some (.table form inner) =>
      if admitsDotted path.isEmpty form then
        (insert (next :: path) value inner).map fun inner => entries.replace key (.table form inner)
      else none
    | some _ => none

/-- Changes the entries of the table that a header path leads to. Tables that are missing on the way
are implied, and an array of tables stands for its last one. -/
def within : List String → (Entries → Option Entries) → Entries → Option Entries
  | [], change, entries => change entries
  | key :: path, change, entries =>
    match entries.get? key with
    | none => (within path change []).map fun inner => entries.add key (.table .implied inner)
    | some (.table .braced _) => none
    | some (.table form inner) =>
      (within path change inner).map fun inner => entries.replace key (.table form inner)
    | some (.tables (last :: others)) =>
      (within path change last).map fun last => entries.replace key (.tables (last :: others))
    | some _ => none

/-- Opens the table of a header. It must be new, or implied by a header and not opened so far. -/
def openTable (path : List String) (key : String) : Entries → Option Entries :=
  within path fun entries =>
    match entries.get? key with
    | none => some (entries.add key (.table .headed []))
    | some (.table .implied inner) => some (entries.replace key (.table .headed inner))
    | some _ => none

/-- Opens one more table of an array that is given by headers. -/
def openElement (path : List String) (key : String) : Entries → Option Entries :=
  within path fun entries =>
    match entries.get? key with
    | none => some (entries.add key (.tables [[]]))
    | some (.tables elements) => some (entries.replace key (.tables ([] :: elements)))
    | some _ => none

end Entries

end Toml

end CoroutineVM
