import CoroutineVM.Proofs.Stack
import CoroutineVM.Proofs.Store.Writing

/-!
# What instructions do to cells

Cells are never forgotten and get their names in order, so that those of one moment are a beginning
of those of any later one. Only one instruction writes to a cell that is already there. Everything
else leaves all cells as they are or adds new ones, and `Extends` says so of two stores.

`Captures` follows a new closure through the list of what it captures: a local is copied to a cell
that is added for it, and an upvalue is taken over as the cell that it is.
-/

namespace CoroutineVM

namespace Processor

/-- A processor without the value on top. -/
def dropTop (processor : Processor) : Processor :=
  { processor with values := processor.values.truncate (processor.values.height - 1) }

/-- A processor with one more value on top. -/
def addTop (value : Value) (processor : Processor) : Processor :=
  { processor with values := processor.values.append value }

/-- A push puts the value on top, or the stack is full and stays as it is. -/
theorem push_cases (value : Value) (processor : Processor) :
    push value processor = (.ok (), processor.addTop value) ∨
      processor.values.isFull = true ∧
        ∃ error, push value processor = (.error error, processor) := by
  by_cases full : processor.values.isFull = true
  · exact .inr ⟨full, _, if_pos full⟩
  · exact .inl (if_neg full)

/-- What is taken from a stack is what lies on top of it, unless the window is empty. -/
theorem pop_cases (processor : Processor) :
    (∃ value, processor.values.top? = some value ∧ pop processor = (.ok value, processor.dropTop)) ∨
      processor.values.height ≤ processor.base ∧
        ∃ error, pop processor = (.error error, processor) := by
  by_cases empty : processor.values.height ≤ processor.base
  · exact .inr ⟨empty, _, if_pos empty⟩
  · obtain ⟨value, top⟩ := processor.values.exists_top? (by omega)
    exact .inl ⟨value, top, by simp only [pop, empty, if_false, top, dropTop]⟩

/-- The cell at a place of the scope that the top frame runs in. -/
def heldCell? (processor : Processor) (index : Nat) : Option CellId :=
  processor.frames.top?.bind fun frame => frame.scope.cells[index]?

/-- Looking for the cell of an upvalue finds the one that the running closure holds there, or fails
if it holds none. -/
theorem upvalueCell_cases (processor : Processor) (index : Nat) :
    (∃ cell, processor.heldCell? index = some cell ∧
        upvalueCell index processor = (.ok cell, processor)) ∨
      processor.heldCell? index = none ∧
        ∃ error, upvalueCell index processor = (.error error, processor) := by
  have looks : (upvalueCell index).Ends processor
      (fun cell after => after = processor ∧ processor.heldCell? index = some cell)
      (fun _ after => after = processor ∧ processor.heldCell? index = none) := by
    refine Attempt.ends_bind_check (fun frame found => ?_) fun error missed => ?_
    · split at found
      next top =>
        cases found
        rw [heldCell?, top, Option.bind_some]
        split
        next cell holds => exact Attempt.ends_pure ⟨rfl, holds⟩
        next missing => exact Attempt.ends_fail ⟨rfl, missing⟩
      next => cases found
    · split at missed
      next => cases missed
      next none => exact ⟨rfl, by rw [heldCell?, none, Option.bind_none]⟩
  rw [Attempt.Ends] at looks
  split at looks
  next cell after run =>
    obtain ⟨rfl, holds⟩ := looks
    exact .inl ⟨cell, holds, run⟩
  next error after run =>
    obtain ⟨rfl, missing⟩ := looks
    exact .inr ⟨missing, error, run⟩

/-- Looking at a local changes nothing. -/
theorem loadLocal_snd (index : Nat) (processor : Processor) :
    (loadLocal index processor).2 = processor := by
  have looks : (loadLocal index).Ends processor (fun _ after => after = processor)
      (fun _ after => after = processor) :=
    Attempt.ends_bind_check (fun _ _ => Attempt.ends_check (fun _ _ => rfl) fun _ _ => rfl)
      fun _ _ => rfl
  rw [Attempt.Ends] at looks
  split at looks
  next run => rw [run, looks]
  next run => rw [run, looks]

end Processor

namespace Store

open Attempt

variable {store : Store} {id : CoroutineId}

/-! ### Cells that are added -/

/-- Cells are only added, and so are scopes. -/
structure Extends (before after : Store) : Prop where
  cells : before.cells.toList <+: after.cells.toList
  scopes : before.nextScope ≤ after.nextScope

/-- A store adds nothing to itself. -/
theorem Extends.refl (store : Store) : store.Extends store := ⟨List.prefix_rfl, Nat.le_refl _⟩

/-- What has been added first is not lost by adding more. -/
theorem Extends.trans {first second third : Store} (left : first.Extends second)
    (right : second.Extends third) : first.Extends third :=
  ⟨left.cells.trans right.cells, Nat.le_trans left.scopes right.scopes⟩

/-- There are never fewer cells than before. -/
theorem Extends.size {before after : Store} (adds : before.Extends after) :
    before.cells.size ≤ after.cells.size := by
  simpa using adds.cells.length_le

/-- What was in a cell is still in it. -/
theorem Extends.readCell {before after : Store} (adds : before.Extends after) {cell : CellId}
    (known : cell < before.cells.size) : after.readCell cell = before.readCell cell := by
  obtain ⟨added, split⟩ := adds.cells
  rw [Store.readCell, Store.readCell, ← Array.getElem?_toList, ← Array.getElem?_toList, ← split,
    List.getElem?_append_left (by simpa using known)]

/-- The cells of a store are all that matters to those of a later one. -/
theorem lenient_extends : Lenient Extends where
  same := fun _ cells scopes => ⟨cells ▸ List.prefix_rfl, Nat.le_of_eq scopes.symm⟩
  trans := Extends.trans
  createCell := fun value store => ⟨by simp [createCell], Nat.le_refl _⟩
  createScope := fun _ => ⟨List.prefix_rfl, Nat.le_succ _⟩

/-- Locals are no cells: what is stored to one changes the stack, and the copy that a closure has
taken stays as it was. -/
theorem cells_storeLocal {index next : Nat} {result : Except ScriptError Flow} {after : Store}
    (run : execute id (.storeLocal index) next store = (result, after)) :
    after.cells = store.cells ∧ ∀ flow, result = .ok flow → flow = .goto next := by
  let attempt : Attempt Processor Unit := do
    let value ← Processor.pop
    Processor.storeLocal index value.collapse
  have same : (onProcessor id attempt store).2.cells = store.cells :=
    (shared_onProcessor id attempt store).2.1
  change andThen (onProcessor id attempt) (fun _ => succeed (Flow.goto next)) store = _ at run
  rw [andThen] at run
  split at run
  next stored =>
    cases run
    exact ⟨by rw [← same, stored], fun flow goes => (Except.ok.inj goes).symm⟩
  next stored =>
    cases run
    exact ⟨by rw [← same, stored], (fun _ goes => by cases goes)⟩

/-! ### Upvalues -/

/-- A store in which a processor lacks the value on top. -/
def dropTop (id : CoroutineId) (store : Store) : Store :=
  store.modifyProcessor id fun _ => (store.processor id).dropTop

/-- Taking the top away concerns the processor of one coroutine. -/
theorem processor_dropTop (known : store.Has id) :
    (store.dropTop id).processor id = (store.processor id).dropTop :=
  congrArg Coroutine.processor (coroutine_modifyCoroutine known _)

/-- How the storing of an upvalue ends: a value is taken from the stack and written to the cell that
the running scope holds; or there is no such cell, and the value is lost; or there is no value. -/
inductive Stores (id : CoroutineId) (index next : Nat) (before : Store) :
    Except ScriptError Flow → Store → Prop where
  | stored {cell : CellId} {value : Value} (popped : (before.processor id).values.top? = some value)
      (holds : (before.processor id).heldCell? index = some cell) :
      Stores id index next before (.ok (.goto next))
        ((before.dropTop id).writeCell cell value.collapse)
  | misses {error : ScriptError} (missing : (before.processor id).heldCell? index = none) :
      Stores id index next before (.error error) (before.dropTop id)
  | refuses {error : ScriptError}
      (empty : (before.processor id).values.height ≤ (before.processor id).base) :
      Stores id index next before (.error error) before

/-- The instruction takes a value from the stack and writes it, collapsed, to the cell that the
running closure holds. It writes to no other cell, and to none if it fails. -/
theorem stores_execute {index next : Nat} {result : Except ScriptError Flow} {after : Store}
    (known : store.Has id) (run : execute id (.storeUpvalue index) next store = (result, after)) :
    Stores id index next store result after := by
  have pops := onProcessor_eq id Processor.pop store
  change andThen (onProcessor id Processor.pop) (fun value =>
    andThen (onProcessor id (Processor.upvalueCell index)) fun cell =>
      andThen (modify (writeCell cell value.collapse)) fun _ => succeed (Flow.goto next)) store =
        _ at run
  obtain ⟨value, top, pop⟩ | ⟨empty, error, refused⟩ := (store.processor id).pop_cases
  · rw [pop] at pops
    change _ = (_, store.dropTop id) at pops
    have looks := onProcessor_eq id (Processor.upvalueCell index) (store.dropTop id)
    rw [processor_dropTop known] at looks
    simp only [andThen, pops] at run
    obtain ⟨cell, holds, found⟩ | ⟨missing, error, missed⟩ :=
      (store.processor id).dropTop.upvalueCell_cases index
    · rw [found, ← processor_dropTop known, modifyProcessor_same] at looks
      simp only [looks] at run
      cases run
      exact .stored top holds
    · rw [missed, ← processor_dropTop known, modifyProcessor_same] at looks
      simp only [looks] at run
      cases run
      exact .misses missing
  · rw [refused, modifyProcessor_same] at pops
    simp only [andThen, pops] at run
    cases run
    exact .refuses empty

/-- A store in which a processor has one more value on top. -/
def addTop (id : CoroutineId) (value : Value) (store : Store) : Store :=
  store.modifyProcessor id fun _ => (store.processor id).addTop value

/-- The value is on top of what was there. -/
theorem values_addTop (known : store.Has id) (value : Value) :
    ((store.addTop id value).processor id).values.toList =
      (store.processor id).values.toList ++ [value] := by
  rw [processor, addTop, modifyProcessor, coroutine_modifyCoroutine known]
  exact BoundedStack.toList_append _ _

/-- How the loading of an upvalue ends: what is in the cell that the running scope holds is pushed;
or there is no such cell, or no room for one more value. -/
inductive Loads (id : CoroutineId) (index next : Nat) (before : Store) :
    Except ScriptError Flow → Store → Prop where
  | loaded {cell : CellId} (holds : (before.processor id).heldCell? index = some cell) :
      Loads id index next before (.ok (.goto next)) (before.addTop id (before.readCell cell))
  | misses {error : ScriptError} (missing : (before.processor id).heldCell? index = none) :
      Loads id index next before (.error error) before
  | refuses {error : ScriptError} (full : (before.processor id).values.isFull = true) :
      Loads id index next before (.error error) before

/-- The instruction pushes what is in the cell that the running closure holds. It writes to no cell
at all. -/
theorem loads_execute {index next : Nat} {result : Except ScriptError Flow} {after : Store}
    (run : execute id (.loadUpvalue index) next store = (result, after)) :
    Loads id index next store result after := by
  have looks := onProcessor_eq id (Processor.upvalueCell index) store
  change andThen (onProcessor id (Processor.upvalueCell index)) (fun cell store =>
    andThen (onProcessor id (Processor.push (store.readCell cell)))
      (fun _ => succeed (Flow.goto next)) store) store = _ at run
  obtain ⟨cell, holds, found⟩ | ⟨missing, error, missed⟩ :=
    (store.processor id).upvalueCell_cases index
  · have pushes := onProcessor_eq id (Processor.push (store.readCell cell)) store
    rw [found, modifyProcessor_same] at looks
    simp only [andThen, looks, pushes] at run
    obtain room | ⟨full, error, refused⟩ := (store.processor id).push_cases (store.readCell cell)
    · rw [room] at run
      cases run
      exact .loaded holds
    · rw [refused, modifyProcessor_same] at run
      cases run
      exact .refuses full
  · rw [missed, modifyProcessor_same] at looks
    simp only [andThen, looks] at run
    cases run
    exact .misses missing

end Store

end CoroutineVM
