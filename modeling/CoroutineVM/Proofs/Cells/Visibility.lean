import CoroutineVM.Proofs.Cells.Effects

/-!
# Who sees what is written

Code that runs in a scope writes to the cells that the scope names and reads from them, on whatever
frame and whatever processor it runs. Writing through one place of a scope is seen through a place
of another one if whatever is written there is what is read here afterwards. That is so exactly if
both places name the same cell; otherwise what is read is what would have been read before.
-/

namespace CoroutineVM

namespace Store

/-- Code on the top frame of a processor runs in the scope. -/
def Runs (store : Store) (id : CoroutineId) (scope : Scope) : Prop :=
  store.Has id ∧ (store.processor id).frames.top?.map Frame.scope = some scope

/-- Code that runs in a scope finds the cells that the scope names. -/
theorem Runs.heldCell {store : Store} {id : CoroutineId} {scope : Scope}
    (runs : store.Runs id scope) (index : Nat) :
    (store.processor id).heldCell? index = scope.cells[index]? := by
  obtain ⟨frame, top, rfl⟩ := Option.map_eq_some_iff.mp runs.2
  rw [Processor.heldCell?, top, Option.bind_some]

/-- Code that runs in the scope stores a value through a place of it. -/
def Writes (before after : Store) (scope : Scope) (index : Nat) (value : Value) : Prop :=
  ∃ id next, before.Runs id scope ∧ (before.processor id).values.top? = some value ∧
    execute id (.storeUpvalue index) next before = (.ok (.goto next), after)

/-- Code that runs in the scope loads a value through a place of it. -/
def Reads (store : Store) (scope : Scope) (index : Nat) (value : Value) : Prop :=
  ∃ id next after, store.Runs id scope ∧
    execute id (.loadUpvalue index) next store = (.ok (.goto next), after) ∧
    (after.processor id).values.top? = some value

/-- Writing through a place of a scope changes the cell that is named there. -/
theorem Writes.cells {before after : Store} {scope : Scope} {index : Nat} {value : Value}
    (writes : before.Writes after scope index value) {cell : CellId}
    (named : scope.cells[index]? = some cell) :
    after.cells = before.cells.setIfInBounds cell value.collapse := by
  obtain ⟨id, next, runs, top, run⟩ := writes
  cases stores_execute runs.1 run with
  | @stored own taken popped holds =>
    rw [runs.heldCell, named] at holds
    cases holds
    cases top.symm.trans popped
    rfl

/-- Reading through a place gives what is in the cell that is named there. -/
theorem Reads.value {store : Store} {scope : Scope} {index : Nat} {value : Value}
    (reads : store.Reads scope index value) {cell : CellId}
    (named : scope.cells[index]? = some cell) : value = store.readCell cell := by
  obtain ⟨id, next, after, runs, run, top⟩ := reads
  cases loads_execute run with
  | @loaded own holds =>
    rw [runs.heldCell, named] at holds
    cases holds
    rw [BoundedStack.top?_eq, values_addTop runs.1, List.getLast?_concat] at top
    exact (Option.some.inj top).symm

/-! ### A store to look at a scope with -/

/-- A store with these cells whose only processor runs code in the scope, with one value on its
stack and room for another one. -/
def staged (cells : Array Value) (scope : Scope) (value : Value) : Store :=
  let processor := Processor.idle 2 1 none
  { initial ⟨#[], #[]⟩ ⟨2, 1, false, ""⟩ 0 with
    cells := cells
    coroutines := #[⟨.main, .free, none,
      { processor with
        values := processor.values.append value
        frames := processor.frames.append ⟨0, .host, scope, 0, 0⟩ }⟩] }

variable {cells : Array Value} {scope : Scope} {index : Nat} {cell : CellId}

/-- The store that is made for this has code running in the scope. -/
theorem staged_runs (cells : Array Value) (scope : Scope) (value : Value) :
    (staged cells scope value).Runs main scope := ⟨Nat.zero_lt_one, rfl⟩

/-- Any value can be written through a place that names a cell. So what is said of all writes is
never said of none. -/
theorem exists_writes (named : scope.cells[index]? = some cell) (value : Value) :
    ∃ after, (staged cells scope value).Writes after scope index value := by
  have runs := staged_runs cells scope value
  cases run : execute main (.storeUpvalue index) 0 (staged cells scope value) with
  | mk result after =>
    have stores := stores_execute runs.1 run
    refine ⟨after, main, 0, runs, rfl, ?_⟩
    generalize isStaged : staged cells scope value = before at *
    cases stores with
    | stored popped holds => exact run
    | misses missing =>
      rw [runs.heldCell, named] at missing
      cases missing
    | refuses empty =>
      subst isStaged
      exact absurd empty (Nat.not_succ_le_zero 0)

/-- Something can be read through a place that names a cell. So what is said of all that is read is
never said of nothing. -/
theorem exists_reads (named : scope.cells[index]? = some cell) (cells : Array Value) :
    ∃ value, (staged cells scope .nil).Reads scope index value := by
  have runs := staged_runs cells scope .nil
  cases run : execute main (.loadUpvalue index) 0 (staged cells scope .nil) with
  | mk result after =>
    have loads := loads_execute run
    generalize isStaged : staged cells scope .nil = before at *
    cases loads with
    | @loaded own holds =>
      refine ⟨before.readCell own, main, 0, _, runs, run, ?_⟩
      rw [BoundedStack.top?_eq, values_addTop runs.1, List.getLast?_concat]
    | misses missing =>
      rw [runs.heldCell, named] at missing
      cases missing
    | refuses full =>
      subst isStaged
      exact absurd full Bool.false_ne_true

end Store

/-! ### Seeing -/

/-- Whatever is written through one place is what is read through the other one afterwards,
whichever processors and frames that happens on. -/
def Sees (cells : Array Value) (writer : Scope) (i : Nat) (reader : Scope) (j : Nat) : Prop :=
  ∀ (before after later : Store) (value read : Value), before.cells = cells →
    before.Writes after writer i value → later.cells = after.cells → later.Reads reader j read →
      read = value.collapse

/-- Whatever is written through one place, what is read through the other one afterwards is what
would have been read before. -/
def Overlooks (cells : Array Value) (writer : Scope) (i : Nat) (reader : Scope) (j : Nat) : Prop :=
  ∀ (before after earlier later : Store) (value old new : Value), before.cells = cells →
    earlier.cells = cells → earlier.Reads reader j old → before.Writes after writer i value →
      later.cells = after.cells → later.Reads reader j new → new = old

section

variable {cells : Array Value} {writer reader : Scope} {i j : Nat} {written read : CellId}

/-- Two places see each other's writes exactly if they name the same cell. If they name different
ones two values that are written cannot both be what the other cell has held all the time. -/
theorem sees_iff (here : writer.cells[i]? = some written) (there : reader.cells[j]? = some read)
    (inside : written < cells.size) : Sees cells writer i reader j ↔ written = read := by
  constructor
  · intro sees
    have shows : ∀ value : Value, (cells.setIfInBounds written value.collapse)[read]?.getD .nil =
        value.collapse := by
      intro value
      obtain ⟨after, writes⟩ := Store.exists_writes here value
      obtain ⟨result, reads⟩ := Store.exists_reads there after.cells
      have seen := sees (.staged cells writer value) after (.staged after.cells reader .nil) value
        result rfl writes rfl reads
      rw [reads.value there] at seen
      change after.cells[read]?.getD .nil = _ at seen
      rw [writes.cells here] at seen
      exact seen
    refine Decidable.byContradiction fun different => ?_
    -- Two values cannot both be what another cell has held all the time.
    have holds : ∀ value : Value, cells[read]?.getD .nil = value.collapse := by
      intro value
      rw [← shows value, Array.getElem?_setIfInBounds_ne different]
    cases (holds (.boolean true)).symm.trans (holds (.boolean false))
  · rintro rfl before after later value result rfl writes same reads
    rw [reads.value there, Store.readCell, same, writes.cells here]
    simp [inside]

/-- Places that name different cells do not see each other's writes. -/
theorem overlooks_of_ne (here : writer.cells[i]? = some written)
    (there : reader.cells[j]? = some read) (different : written ≠ read) :
    Overlooks cells writer i reader j := by
  rintro before after earlier later value old new rfl same found writes follows reads
  rw [reads.value there, found.value there, Store.readCell, Store.readCell, follows, same,
    writes.cells here, Array.getElem?_setIfInBounds_ne different]

end

end CoroutineVM
