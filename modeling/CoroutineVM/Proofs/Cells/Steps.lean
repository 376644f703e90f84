import CoroutineVM.Proofs.Cells.Effects
import CoroutineVM.Proofs.Machine.Writing

/-!
# What a run does to cells

A step keeps what is in a cell unless code stores to the cell or the host writes to it, and whole
runs keep it as long as neither happens.
-/

namespace CoroutineVM

variable {W : Type} {host : Host W}

namespace Store

/-- A change that the host makes by hand writes to no cell but by the one change that says so. -/
theorem extends_edit (store : Store) {change : Edit}
    (other : ∀ cell value, change ≠ .writeCell cell value) : store.Extends (store.edit change) := by
  refine relates_edit lenient_extends store change fun writing => ?_
  cases change with
  | createTable => exact ⟨List.prefix_rfl, Nat.le_refl _⟩
  | setEntry table name value => exact ⟨List.prefix_rfl, Nat.le_refl _⟩
  | writeCell cell value => exact absurd rfl (other cell value)
  | _ => cases writing

end Store

namespace Machine

variable {id : CoroutineId}

/-- Code is about to store to a cell. -/
def StoresTo (machine : Machine W) (cell : CellId) : Prop :=
  ∃ id pointer index, machine.focus = .code id pointer ∧
    machine.store.chunk.instruction? pointer = some (.storeUpvalue index) ∧
    (machine.store.processor id).heldCell? index = some cell

/-- A step only adds cells if neither code nor the host writes to one. -/
theorem extends_step (host : Host W) (machine : Machine W)
    (other : ∀ id pointer index, machine.focus = .code id pointer →
      machine.store.chunk.instruction? pointer ≠ some (.storeUpvalue index))
    (quiet : ∀ cell value, (Stage.steps machine).edit? host ≠ some (.writeCell cell value)) :
    machine.store.Extends (machine.step host).store := by
  refine relates_step Store.lenient_extends host machine
    (fun _ _ _ _ _ _ _ => ⟨List.prefix_rfl, Nat.le_refl _⟩)
    (fun id pointer index coding fetched => absurd fetched (other id pointer index coding)) ?_
  rintro change asked -
  refine machine.store.extends_edit fun cell value same => quiet cell value ?_
  exact Stage.edit?_of_writeCell (same ▸ asked)

/-- So an operation that is none of those begins with all cells as they are. -/
theorem extends_begin (machine : Machine W) (operation : Operation) (world : W)
    (quiet : ∀ cell value, (Stage.begins machine operation).edit? host ≠
      some (.writeCell cell value)) :
    machine.store.Extends (enter (operation.begin machine.store) world []).store := by
  refine relates_begin Store.lenient_extends host machine operation world ?_
  rintro change asked -
  exact machine.store.extends_edit fun cell value same => quiet cell value (same ▸ asked)

/-- What a step that stores to an upvalue comes to: the cell that the top frame holds gets the
collapsed value, or nothing is written. -/
theorem step_stores (host : Host W) {machine : Machine W} {pointer index : Nat}
    (known : machine.store.Has id) (coding : machine.focus = .code id pointer)
    (fetched : machine.store.chunk.instruction? pointer = some (.storeUpvalue index)) :
    ∃ result, Store.Stores id index (pointer + 1) machine.store result (machine.step host).store ∧
      ∀ flow, result = .ok flow → (machine.step host).focus = .code id (pointer + 1) := by
  obtain ⟨store, world, focus, pending⟩ := machine
  obtain rfl : focus = .code id pointer := coding
  cases run : Store.execute id (.storeUpvalue index) (pointer + 1) store with
  | mk result after =>
    have stores := Store.stores_execute known run
    simp only [step, stepCode, fetched, run]
    refine ⟨result, ?_⟩
    cases stores with
    | stored popped holds => exact ⟨.stored popped holds, fun _ _ => rfl⟩
    | misses missing => exact ⟨.misses missing, (fun _ same => by cases same)⟩
    | refuses empty => exact ⟨.refuses empty, (fun _ same => by cases same)⟩

/-- A local that is written to is no cell any more: the instruction changes the stack and leaves the
cells alone, also if the local has been captured. -/
theorem step_storeLocal (host : Host W) {machine : Machine W} {pointer slot : Nat}
    (coding : machine.focus = .code id pointer)
    (fetched : machine.store.chunk.instruction? pointer = some (.storeLocal slot)) :
    (machine.step host).store.cells = machine.store.cells := by
  obtain ⟨store, world, focus, pending⟩ := machine
  obtain rfl : focus = .code id pointer := coding
  cases run : Store.execute id (.storeLocal slot) (pointer + 1) store with
  | mk result after =>
    obtain ⟨same, goes⟩ := Store.cells_storeLocal run
    simp only [step, stepCode, fetched, run]
    cases result with
    | ok flow =>
      obtain rfl := goes flow rfl
      exact same
    | error error => exact same

/-- A step stores to a cell, or it only adds cells. Code stores by one instruction, and a function
of the host by one change. -/
theorem step_cases {machine : Machine W}
    (known : ∀ id pointer, machine.focus = .code id pointer → machine.store.Has id)
    (quiet : ∀ cell value, (Stage.steps machine).edit? host ≠ some (.writeCell cell value)) :
    machine.store.Extends (machine.step host).store ∨
      ∃ cell value, machine.StoresTo cell ∧
        (machine.step host).store.cells = machine.store.cells.setIfInBounds cell value ∧
        (machine.step host).store.nextScope = machine.store.nextScope := by
  by_cases storing : ∃ id pointer index, machine.focus = .code id pointer ∧
      machine.store.chunk.instruction? pointer = some (.storeUpvalue index)
  · obtain ⟨id, pointer, index, coding, fetched⟩ := storing
    obtain ⟨result, stores, _⟩ := step_stores host (known id pointer coding) coding fetched
    generalize (machine.step host).store = after at stores
    cases stores with
    | stored popped holds =>
      exact .inr ⟨_, _, ⟨id, pointer, index, coding, fetched, holds⟩, rfl, rfl⟩
    | misses missing => exact .inl ⟨List.prefix_rfl, Nat.le_refl _⟩
    | refuses => exact .inl (.refl _)
  · exact .inl (extends_step host machine (fun id pointer index coding fetched =>
      storing ⟨id, pointer, index, coding, fetched⟩) quiet)

/-- Cells and scopes are never forgotten. -/
theorem step_grows {machine : Machine W}
    (known : ∀ id pointer, machine.focus = .code id pointer → machine.store.Has id)
    (quiet : ∀ cell value, (Stage.steps machine).edit? host ≠ some (.writeCell cell value)) :
    machine.store.cells.size ≤ (machine.step host).store.cells.size ∧
      machine.store.nextScope ≤ (machine.step host).store.nextScope := by
  obtain adds | ⟨cell, value, _, cells, scopes⟩ := step_cases known quiet
  · exact ⟨adds.size, adds.scopes⟩
  · rw [cells, scopes, Array.size_setIfInBounds]
    exact ⟨Nat.le_refl _, Nat.le_refl _⟩

/-- What is in a cell changes only if code stores to the cell. -/
theorem step_readCell {machine : Machine W}
    (known : ∀ id pointer, machine.focus = .code id pointer → machine.store.Has id)
    (quiet : ∀ cell value, (Stage.steps machine).edit? host ≠ some (.writeCell cell value))
    {cell : CellId} (there : cell < machine.store.cells.size) (other : ¬ machine.StoresTo cell) :
    (machine.step host).store.readCell cell = machine.store.readCell cell := by
  obtain adds | ⟨written, value, stores, cells, _⟩ := step_cases known quiet
  · exact adds.readCell there
  · have different : written ≠ cell := fun same => other (same ▸ stores)
    rw [Store.readCell, Store.readCell, cells, Array.getElem?_setIfInBounds_ne different]

end Machine

end CoroutineVM
