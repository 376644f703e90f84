import Mathlib.Data.Set.Card
import CoroutineVM.Proofs.Contents.Values
import CoroutineVM.Table

/-!
# What tables tell

A table is told by what has been set in it: under each name it has what the last value set for the
name collapses to, and no name whose value is nil. Tables are made and written to one after the
other, and a history of that says what is in all of them, however many references to each of them
are in use.
-/

namespace CoroutineVM

namespace Table

variable {table : Table}

/-! ### One table -/

/-- After erasing a name it has nothing, and every other name is looked up past the entries that
went. -/
theorem get_erase (table : Table) (name other : String) :
    (table.erase name).get other = if other = name then .nil else table.get other := by
  rw [get, erase, List.find?_filter]
  by_cases same : other = name
  · have none : table.entries.find? (fun entry => entry.1 != name ∧ entry.1 == other) = none := by
      rw [List.find?_eq_none]
      intro entry _
      simp [same]
    simp only [none, if_pos same]
  · have others : (fun entry : String × Value => decide (entry.1 != name ∧ entry.1 == other)) =
        fun entry => entry.1 == other := by
      funext entry
      by_cases found : entry.1 = other
      · simp [found, same]
      · simp [found]
    rw [others, if_neg same, get]

/-- What is set is what is read, collapsed, and other names are left alone. Nil is set by erasing,
any other value by erasing and putting the new entry in front. -/
theorem get_set (table : Table) (name other : String) (value : Value) :
    (table.set name value).get other =
      if other = name then value.collapse else table.get other := by
  rw [set]
  split
  next nil => rw [get_erase, nil]
  next notNil =>
    rw [get, List.find?_cons]
    by_cases same : other = name
    · simp [same]
    · rw [if_neg same]
      have missed : (name == other) = false := by simpa using Ne.symm same
      simp only [missed]
      exact (get_erase table name other).trans (if_neg same)

/-- No name occurs twice, and every value is one that tables can have. -/
structure Proper (table : Table) : Prop where
  names : (table.entries.map Prod.fst).Nodup
  values : ∀ entry ∈ table.entries, entry.2.isEntry = true

/-- A new table has no entry that could be wrong. -/
theorem proper_empty : Table.empty.Proper := ⟨List.nodup_nil, fun _ member => by cases member⟩

/-- Fewer entries are as proper as those from which they come. -/
theorem Proper.erase (proper : table.Proper) (name : String) : (table.erase name).Proper where
  names := proper.names.sublist (List.filter_sublist.map Prod.fst)
  values := fun entry member => proper.values entry (List.mem_filter.mp member).1

/-- Setting keeps a table proper: the name has been erased before it is put in again, and a value is
collapsed before it is stored, so that it is no tuple, and nil is not stored. -/
theorem Proper.set (proper : table.Proper) (name : String) (value : Value) :
    (table.set name value).Proper := by
  rw [Table.set]
  split
  next => exact proper.erase name
  next notNil =>
    constructor
    case names =>
      refine List.nodup_cons.mpr ⟨fun there => ?_, (proper.erase name).names⟩
      obtain ⟨entry, member, same⟩ := List.mem_map.mp there
      simpa [same] using (List.mem_filter.mp member).2
    case values =>
      exact List.forall_mem_cons.mpr ⟨Value.isEntry_collapse notNil, (proper.erase name).values⟩

/-- A name has a value exactly if it is among the entries: no entry of a proper table says nil. -/
theorem Proper.get_ne_nil_iff (proper : table.Proper) (name : String) :
    table.get name ≠ .nil ↔ name ∈ table.entries.map Prod.fst := by
  rw [get]
  split
  next entry found =>
    have member := List.mem_of_find?_eq_some found
    have named : entry.1 = name := by simpa using List.find?_some found
    refine ⟨fun _ => List.mem_map.mpr ⟨entry, member, named⟩, fun _ nil => ?_⟩
    have isEntry := proper.values entry member
    rw [nil] at isEntry
    cases isEntry
  next missing =>
    refine ⟨fun something => absurd rfl something, fun there => ?_⟩
    obtain ⟨entry, member, named⟩ := List.mem_map.mp there
    exact absurd named (by simpa using List.find?_eq_none.mp missing entry member)

/-- The names that have a value are as many as the table has entries, because no name occurs twice.
They are counted as a set of names, so that the count does not depend on how entries are kept. -/
theorem Proper.encard (proper : table.Proper) :
    {name | table.get name ≠ .nil}.encard = table.size := by
  have names :
      {name | table.get name ≠ .nil} = ((table.entries.map Prod.fst).toFinset : Set String) := by
    ext name
    simpa using proper.get_ne_nil_iff name
  rw [names, Set.encard_coe_eq_coe_finsetCard, List.toFinset_card_of_nodup proper.names,
    List.length_map, size]

/-- What a name has for which this has been the last value set, if any has. -/
def told : Option Value → Value
  | some value => value.collapse
  | none => .nil

/-- What a table tells in which these have been the last values set. -/
structure Tells (table : Table) (last : String → Option Value) : Prop where
  get : ∀ name, table.get name = told (last name)
  /-- There are as many values as names whose last value collapses to something other than nil. -/
  size : {name | told (last name) ≠ .nil}.encard = table.size
  isEmpty : table.isEmpty = true ↔ table.size = 0
  values : ∀ entry ∈ table.entries, entry.2 ≠ .nil ∧ entry.2.isTuple = false

/-- A proper table tells what its lookups say. Properness gives all that is said of sizes and of
stored values; only the lookups depend on what has been set. -/
theorem Proper.tells (proper : table.Proper) {last : String → Option Value}
    (get : ∀ name, table.get name = told (last name)) : table.Tells last where
  get := get
  size := by
    simp only [← get]
    exact proper.encard
  isEmpty := by rw [isEmpty, List.isEmpty_iff, size, List.length_eq_zero_iff]
  values := fun entry member => by
    have isEntry := proper.values entry member
    refine ⟨fun nil => ?_, Value.isTuple_of_isEntry isEntry⟩
    rw [nil] at isEntry
    cases isEntry

end Table

/-! ### All tables -/

namespace Value

/-- References are the same exactly if they are to one table. -/
theorem same_table_iff (id other : TableId) :
    (table other).same (table id) = true ↔ other = id := by
  simp [same]

/-- References that a script tells apart are to different tables. -/
theorem ne_of_not_same_table {id other : TableId}
    (different : (table other).same (table id) = false) :
    id ≠ other := by
  rintro rfl
  rw [(same_table_iff id id).mpr rfl] at different
  cases different

/-- Only the boolean itself is the same as it. -/
theorem eq_of_same_boolean {value : Value} {truth : Bool}
    (alike : value.same (.boolean truth) = true) :
    value = .boolean truth := by
  cases value <;> simp_all [same]

end Value

/-- What is done to tables. -/
inductive TableDeed where
  | create
  /-- To set a value for a name, through a reference to a table. -/
  | set (id : TableId) (name : String) (value : Value)

namespace TableDeed

/-- The value that is set for a name of a table. -/
def value? (id : TableId) (name : String) : TableDeed → Option Value
  | .create => none
  | .set other otherName value =>
    if (Value.table other).same (.table id) && otherName == name then some value else none

/-- The tables when it has been done. -/
def carryOut (tables : Tables) : TableDeed → Tables
  | .create => tables.create.2
  | .set id name value => tables.set id name value

end TableDeed

/-- The value that has been set last for a name of a table; deeds are listed newest first. -/
def lastSet? (id : TableId) (name : String) (deeds : List TableDeed) : Option Value :=
  deeds.findSome? (·.value? id name)

/-- The newest deed decides the name that it is about. All other names, and this name in other
tables, have what the deeds before it have set. -/
theorem lastSet?_set (id other : TableId) (name otherName : String) (value : Value)
    (deeds : List TableDeed) : lastSet? id name (.set other otherName value :: deeds) =
      if other = id ∧ otherName = name then some value else lastSet? id name deeds := by
  rw [lastSet?, List.findSome?_cons, TableDeed.value?]
  by_cases here : other = id ∧ otherName = name
  · simp [here, Value.same_table_iff]
  · have elsewhere : ((Value.table other).same (.table id) && otherName == name) = false := by
      rw [Bool.eq_false_iff]
      intro both
      rw [Bool.and_eq_true, Value.same_table_iff, beq_iff_eq] at both
      exact here both
    simp [here, elsewhere, lastSet?]

namespace Tables

variable {tables : Tables} {deeds : List TableDeed} {id : TableId}

/-- Whether there is a table of this name. -/
def Has (tables : Tables) (id : TableId) : Prop := id < tables.contents.size

instance (tables : Tables) (id : TableId) : Decidable (tables.Has id) :=
  inferInstanceAs (Decidable (id < tables.contents.size))

/-- The tables that come of a history, which begins without any. Only a table that there is can be
written to. -/
inductive Made : List TableDeed → Tables → Prop where
  | start : Made [] ⟨#[]⟩
  | creates {deeds : List TableDeed} {tables : Tables} (made : Made deeds tables) :
      Made (.create :: deeds) tables.create.2
  | sets {deeds : List TableDeed} {tables : Tables} {id : TableId} (made : Made deeds tables)
      (known : tables.Has id) (name : String) (value : Value) :
      Made (.set id name value :: deeds) (tables.set id name value)

/-! ### What a deed does to each table -/

/-- A table that does not exist reads as empty. -/
theorem table_unknown (unknown : ¬ tables.Has id) : tables.table id = .empty := by
  rw [Has] at unknown
  simp [table, Array.getElem?_eq_none (Nat.le_of_not_lt unknown)]

/-- Setting a value for a name of a table is setting it in what the table reads as. -/
theorem table_set (known : tables.Has id) (name : String) (value : Value) :
    (tables.set id name value).table id = (tables.table id).set name value := by
  rw [Has] at known
  simp [table, set, Array.getElem_modify, known]

/-- A write goes to one table; what is read of the others does not change. -/
theorem table_set_other {other : TableId} (different : other ≠ id) (name : String) (value : Value) :
    (tables.set id name value).table other = tables.table other := by
  simp [table, set, Array.getElem?_modify, different.symm]

/-- Writing makes no table and forgets none. -/
theorem has_set {other : TableId} (name : String) (value : Value) :
    (tables.set id name value).Has other ↔ tables.Has other := by
  simp [Has, set]

/-- Writing to a table that does not exist does nothing. -/
theorem set_unknown (unknown : ¬ tables.Has id) (name : String) (value : Value) :
    tables.set id name value = tables := by
  have unchanged : tables.contents.modify id (·.set name value) = tables.contents := by
    apply Array.ext_getElem?
    intro index
    by_cases same : id = index
    · subst same
      rw [Has] at unknown
      simp [unknown]
    · simp [same, Array.getElem?_modify]
  rw [set, unchanged]

/-- A new table reads like one that does not exist, and the others are as they were. So making a
table changes nothing that can be read. -/
theorem table_create (tables : Tables) (other : TableId) :
    tables.create.2.table other = tables.table other := by
  obtain before | rfl | after := Nat.lt_trichotomy other tables.contents.size
  · simp [table, create, Array.getElem?_push, Nat.ne_of_lt before]
  · simp [table, create]
  · simp [table, create, Array.getElem?_push, Nat.ne_of_gt after]

/-- Besides the tables that there were there is the new one after its making, and no other. -/
theorem has_create (tables : Tables) (other : TableId) :
    tables.create.2.Has other ↔ tables.Has other ∨ other = tables.create.1 := by
  rw [Has, create, Array.size_push]
  exact Nat.lt_succ_iff_lt_or_eq

/-- The tables after a deed, if there is one. -/
def after (tables : Tables) : Option TableDeed → Tables
  | some deed => deed.carryOut tables
  | none => tables

/-- No table is ever forgotten, whatever is done, so that a reference stays good. -/
theorem Has.after (known : tables.Has id) (deed : Option TableDeed) :
    (tables.after deed).Has id := by
  match deed with
  | none => exact known
  | some .create => exact (has_create tables id).mpr (.inl known)
  | some (.set other name value) => exact (has_set name value).mpr known

/-! ### What a history tells -/

namespace Made

/-- A history goes on with any deed that can be done. Writing asks for a table that is there; this
is the only condition. -/
theorem after (made : Made deeds tables) (deed : Option TableDeed)
    (possible : ∀ id name value, deed = some (.set id name value) → tables.Has id) :
    Made (deed.toList ++ deeds) (tables.after deed) := by
  match deed with
  | none => exact made
  | some .create => exact made.creates
  | some (.set id name value) => exact made.sets (possible id name value rfl) name value

/-- Every table of a history is proper, by induction on its deeds: a deed concerns one table, which
it keeps proper, and leaves the rest. -/
theorem proper (made : Made deeds tables) (id : TableId) : (tables.table id).Proper := by
  induction made with
  | start => exact Table.proper_empty
  | creates made inductionHypothesis =>
    rw [table_create]
    exact inductionHypothesis
  | @sets _ _ other made known name value inductionHypothesis =>
    by_cases same : id = other
    · subst same
      rw [table_set known]
      exact inductionHypothesis.set name value
    · rw [table_set_other same]
      exact inductionHypothesis

/-- Each name of each table has what has been set for it last. By induction on the deeds, the newest
of which either is about the name or leaves it alone. -/
theorem get (made : Made deeds tables) (id : TableId) (name : String) :
    (tables.table id).get name = Table.told (lastSet? id name deeds) := by
  induction made with
  | start => rfl
  | creates made inductionHypothesis =>
    rw [table_create]
    exact inductionHypothesis
  | @sets deeds before other made known otherName value inductionHypothesis =>
    -- What is set concerns one name of one table.
    rw [lastSet?_set]
    by_cases same : id = other
    · subst same
      rw [table_set known, Table.get_set]
      by_cases named : name = otherName
      · subst named
        rw [if_pos rfl, if_pos ⟨rfl, rfl⟩, Table.told]
      · rw [if_neg named, if_neg fun both => named both.2.symm]
        exact inductionHypothesis
    · rw [table_set_other same, if_neg fun both => same both.1.symm]
      exact inductionHypothesis

end Made

/-- What holds of the tables that a history has made. -/
structure Lawful (deeds : List TableDeed) (tables : Tables) : Prop where
  /-- Through every reference to it a table tells the same: what has been set through any of
  them. -/
  tells : ∀ id other : TableId, (Value.table other).same (.table id) = true →
    (tables.table other).Tells (lastSet? id · deeds)
  /-- Setting a value through a reference to another table does not affect a table. -/
  apart : ∀ id other : TableId, (Value.table other).same (.table id) = false → ∀ name value,
    (tables.set other name value).table id = tables.table id
  /-- A new table has not been there before and is empty. -/
  fresh : ¬ tables.Has tables.create.1 ∧ tables.create.2.Has tables.create.1 ∧
    tables.create.2.table tables.create.1 = .empty
  /-- Nor does a new table affect any other. -/
  others : ∀ id, tables.Has id → tables.create.2.table id = tables.table id

/-- A history of deeds makes tables that obey the law: what a table tells has been said by
`Made.get` and `Made.proper`, and the rest is about the next deed alone. -/
theorem Made.lawful (made : Made deeds tables) : tables.Lawful deeds where
  tells := fun id other same => by
    obtain rfl := (Value.same_table_iff id other).mp same
    exact (made.proper other).tells (made.get other)
  apart := fun _ _ different name value =>
    table_set_other (Value.ne_of_not_same_table different) name value
  fresh := by
    have new : ¬ tables.Has tables.create.1 := Nat.lt_irrefl _
    exact ⟨new, (has_create tables _).mpr (.inr rfl), by rw [table_create, table_unknown new]⟩
  others := fun id _ => table_create tables id

end Tables

end CoroutineVM
