import CoroutineVM.Value.Basic

/-!
Tables and the collection they live in.

A table maps names to values. It holds neither nil nor tuples: a tuple is collapsed when it is
stored, and storing nil removes the name. Values refer to a table by its place in the collection, so
that everyone who holds the reference sees the same table.
-/

namespace CoroutineVM

/-- Names with their values; no name occurs twice. -/
structure Table where
  entries : List (String × Value)

namespace Table

def empty : Table := ⟨[]⟩

/-- The value of a name; nil when it has none. -/
def get (table : Table) (name : String) : Value :=
  match table.entries.find? (·.1 == name) with
  | some entry => entry.2
  | none => .nil

/-- The table without a name. -/
def erase (table : Table) (name : String) : Table :=
  ⟨table.entries.filter (·.1 != name)⟩

/-- Stores the collapsed value under a name; nil removes the name. -/
def set (table : Table) (name : String) (value : Value) : Table :=
  match value.collapse with
  | .nil => table.erase name
  | single => ⟨(name, single) :: (table.erase name).entries⟩

/-- How many names have a value. -/
def size (table : Table) : Nat := table.entries.length

def isEmpty (table : Table) : Bool := table.entries.isEmpty

end Table

/-- All tables, by their names. -/
structure Tables where
  contents : Array Table

namespace Tables

/-- The table of this name; one that does not exist reads as empty. -/
def table (tables : Tables) (id : TableId) : Table := tables.contents[id]?.getD .empty

/-- A new empty table and its name. -/
def create (tables : Tables) : TableId × Tables :=
  (tables.contents.size, ⟨tables.contents.push .empty⟩)

/-- What is stored under a name in one of the tables; nil if nothing is, or if there is no such
table. -/
def get (tables : Tables) (id : TableId) (name : String) : Value := (tables.table id).get name

/-- Stores a value under a name in one of the tables, and leaves the other tables alone. -/
def set (tables : Tables) (id : TableId) (name : String) (value : Value) : Tables :=
  ⟨tables.contents.modify id (·.set name value)⟩

end Tables

end CoroutineVM
