import CoroutineVM.Proofs.Store.Likeness
import CoroutineVM.Proofs.Store.Underlay

/-!
# Instructions on twins

Two processors with the same stacks are twins: whatever else they hold, an instruction finds the
same on both. Their stores share what is not a processor. An instruction that is not about
coroutines does the same on both twins, ends in the same way, and leaves twins in stores that share
what they have shared before.
-/

namespace CoroutineVM

open Attempt

/-! ### Processors -/

namespace Processor

variable {α β : Type}

/-- Two processors with the same stacks. -/
structure SameStacks (first second : Processor) : Prop where
  values : second.values = first.values
  frames : second.frames = first.frames

/-- Either of two processors with the same stacks can be taken as the first. -/
theorem SameStacks.symm {first second : Processor} (same : SameStacks first second) :
    SameStacks second first := ⟨same.values.symm, same.frames.symm⟩

/-- An attempt looks at nothing but the stacks, and changes nothing else. -/
def OnStacks (attempt : Attempt Processor α) : Prop := Matches SameStacks attempt attempt

/-- What processors do they do alike if their stacks are the same, capacities included, so that here
not even an overflow is an exception. -/
theorem likeness_sameStacks : Likeness (fun _ => False) SameStacks where
  values := fun same => congrArg BoundedStack.items same.values
  frames := fun same => congrArg BoundedStack.items same.frames
  setValues := fun same items => ⟨by rw [same.values], same.frames⟩
  setFrames := fun same items => ⟨same.values, by rw [same.frames]⟩
  push := by
    rintro value first second ⟨values, frames⟩
    simp only [push, values]
    split
    · exact .inr ⟨rfl, values, frames⟩
    · exact .inr ⟨rfl, rfl, frames⟩
  pushFrame := by
    rintro closure entryPoint returnPoint first second ⟨values, frames⟩
    simp only [pushFrame, values, frames]
    split
    · exact .inr ⟨rfl, values, frames⟩
    · exact .inr ⟨rfl, rfl, rfl⟩

/-- A push finds nothing but the stacks. -/
theorem onStacks_push (value : Value) : OnStacks (push value) := likeness_sameStacks.push value

/-- Nor does an entry by the host. -/
theorem onStacks_enterFromHost (chunk : Chunk) (callee : Option Value) (arguments : List Value) :
    OnStacks (enterFromHost chunk callee arguments) :=
  likeness_sameStacks.enterFromHost chunk callee arguments

end Processor

/-! ### Stores -/

/-- Nothing in the code has to do with coroutines. -/
def Chunk.IsPlain (chunk : Chunk) : Prop :=
  ∀ instruction ∈ chunk.code, instruction.concernsCoroutines = false

instance (chunk : Chunk) : Decidable chunk.IsPlain :=
  inferInstanceAs (Decidable (∀ instruction ∈ chunk.code, instruction.concernsCoroutines = false))

namespace Store

open Processor

variable {α : Type}

/-- Two stores share everything but their processors and what counts or watches executions. If
coroutines are created, the next one gets the same name in both. -/
structure Shares (creating : Prop) (first second : Store) : Prop where
  chunk : second.chunk = first.chunk
  settings : second.settings = first.settings
  tables : second.tables = first.tables
  cells : second.cells = first.cells
  nextScope : second.nextScope = first.nextScope
  coroutines : creating → second.coroutines.size = first.coroutines.size

/-- What is shared is shared both ways. -/
theorem Shares.symm {creating : Prop} {first second : Store}
    (shares : Shares creating first second) :
    Shares creating second first :=
  ⟨shares.chunk.symm, shares.settings.symm, shares.tables.symm, shares.cells.symm,
    shares.nextScope.symm, fun creates => (shares.coroutines creates).symm⟩

/-- Two stores that share all this and whose code has nothing to do with coroutines, with a
processor of each that are twins. -/
structure Twins (creating : Prop) (id twin : CoroutineId) (first second : Store) : Prop where
  plain : first.chunk.IsPlain
  shares : Shares creating first second
  known : first.Has id
  twinKnown : second.Has twin
  sameStacks : SameStacks (first.processor id) (second.processor twin)

variable {creating : Prop} {id twin : CoroutineId}

/-- So either twin can be taken as the first. -/
theorem Twins.symm {first second : Store} (twins : Twins creating id twin first second) :
    Twins creating twin id second first :=
  ⟨twins.shares.chunk ▸ twins.plain, twins.shares.symm, twins.twinKnown, twins.known,
    twins.sameStacks.symm⟩

/-- Changes of the two processors. -/
theorem Twins.modify {first second : Store} (twins : Twins creating id twin first second)
    {processor other : Processor} (same : SameStacks processor other) :
    Twins creating id twin (first.modifyProcessor id fun _ => processor)
      (second.modifyProcessor twin fun _ => other) := by
  obtain ⟨plain, shares, known, twinKnown, sameStacks⟩ := twins
  refine ⟨plain, ⟨shares.chunk, shares.settings, shares.tables, shares.cells, shares.nextScope, ?_⟩,
    (has_modifyCoroutine ..).mpr known, (has_modifyCoroutine ..).mpr twinKnown, ?_⟩
  · intro creates
    simpa [modifyProcessor, modifyCoroutine] using shares.coroutines creates
  · rw [processor_modifyProcessor known, processor_modifyProcessor twinKnown]
    exact same

/-- An attempt does the same on both twins. -/
theorem matches_onProcessor {attempt : Attempt Processor α} (onStacks : OnStacks attempt) :
    Matches (Twins creating id twin) (onProcessor id attempt) (onProcessor twin attempt) := by
  intro first second twins
  obtain ⟨_, _, never⟩ | ⟨same, sameStacks⟩ := onStacks _ _ twins.sameStacks
  · exact never.elim
  rw [onProcessor_eq, onProcessor_eq]
  exact .inr ⟨same, twins.modify sameStacks⟩

/-- A cell that is made gets the same number in both stores. -/
theorem matches_createCell (value : Value) :
    Matches (Twins creating id twin) (createCell value) (createCell value) := by
  rintro first second ⟨plain, shares, known, twinKnown, sameStacks⟩
  have shared : Shares creating { first with cells := first.cells.push value }
      { second with cells := second.cells.push value } :=
    { shares with cells := congrArg (·.push value) shares.cells }
  exact .inr ⟨congrArg (fun cells : Array Value => Except.ok cells.size) shares.cells,
    plain, shared, known, twinKnown, sameStacks⟩

/-- So does a closure that is made get the same number. -/
theorem matches_createClosure (function : Nat) (cells : List CellId) :
    Matches (Twins creating id twin) (createClosure function cells)
      (createClosure function cells) := by
  rintro first second ⟨plain, shares, known, twinKnown, sameStacks⟩
  have shared : Shares creating { first with nextScope := first.nextScope + 1 }
      { second with nextScope := second.nextScope + 1 } :=
    { shares with nextScope := congrArg (· + 1) shares.nextScope }
  exact .inr ⟨congrArg (fun scope : ScopeId => Except.ok (⟨function, ⟨scope, cells⟩⟩ : Closure))
    shares.nextScope, plain, shared, known, twinKnown, sameStacks⟩

/-- Instructions do alike on twins, as what they are built of does. -/
theorem likeness_twins :
    Likeness (fun _ => False) SameStacks id twin (Twins creating id twin) where
  processors := likeness_sameStacks
  onProcessor := matches_onProcessor
  chunk := fun twins => twins.shares.chunk
  tables := fun twins => twins.shares.tables
  cells := fun twins => twins.shares.cells
  createCell := matches_createCell
  createClosure := matches_createClosure
  writeCell := fun twins cell value => { twins with shares := { twins.shares with
    cells := congrArg (·.setIfInBounds cell value) twins.shares.cells } }
  setGlobal := fun twins name value => { twins with shares := { twins.shares with
    tables := congrArg (·.set globals name value) twins.shares.tables } }

/-- An instruction that has nothing to do with coroutines does the same on both twins. -/
theorem matches_execute {instruction : Instruction} (plain : instruction.concernsCoroutines = false)
    (next : Nat) :
    Matches (Twins creating id twin) (execute id instruction next)
      (execute twin instruction next) :=
  likeness_twins.execute plain next

/-- What an instruction that has nothing to do with coroutines ends with: it neither yields nor
resumes. -/
def IsPlain : Flow → Prop
  | .goto _ | .returned _ | .callHost _ _ _ => True
  | .yielded _ _ | .resume _ _ _ => False

/-- A call instruction enters a function or the host; it resumes nothing and yields nothing. -/
theorem call_isPlain (count next : Nat) (store : Store) :
    (call id count next).Ends store (fun flow _ => IsPlain flow) fun _ _ => True := by
  refine ends_of_last fun arguments _ => ends_of_last fun callee _ => ?_
  split
  · exact ends_of_last fun _ _ => ends_of_last fun _ _ => ends_pure trivial
  · exact ends_pure trivial
  · exact ends_fail trivial

/-- What is computed of a processor ends in a store as it does by itself. -/
theorem ends_onProcessor {α : Type} {attempt : Attempt Processor α} {shape : α → Prop}
    {store : Store}
    (ends : attempt.Ends (store.processor id) (fun result _ => shape result) fun _ _ => True) :
    (onProcessor id attempt).Ends store (fun result _ => shape result) fun _ _ => True := by
  cases run : attempt (store.processor id) with
  | mk outcome after =>
    rw [Ends, run] at ends
    rw [Ends, onProcessor_eq, run]
    cases outcome with
    | ok result => exact ends
    | error error => trivial

/-- A return goes on in code or hands its value to the host. -/
theorem leaveFrame_isPlain (count : Nat) (store : Store) :
    (leaveFrame id count).Ends store (fun flow _ => IsPlain flow) fun _ _ => True := by
  refine ends_onProcessor (ends_of_last fun value _ => ends_of_last fun frame _ => ?_)
  split
  · exact ends_pure trivial
  · exact ends_of_last fun _ _ => ends_pure trivial

/-- No instruction resumes or yields but those that are about coroutines. It is gone through
instruction by instruction, since each of them decides by itself where the code goes on. -/
theorem execute_isPlain {instruction : Instruction} (plain : instruction.concernsCoroutines = false)
    (next : Nat) (store : Store) :
    (execute id instruction next).Ends store (fun flow _ => IsPlain flow) fun _ _ => True := by
  cases instruction with
  | nop => exact ends_pure trivial
  | jump target => exact ends_pure trivial
  | jumpIfFalse target => exact ends_of_last fun _ _ => ends_pure trivial
  | arguments => exact ends_of_last fun _ _ => ends_of_last fun _ _ => ends_pure trivial
  | loadUpvalue index =>
    exact ends_of_last fun _ _ => ends_of_last fun _ _ => ends_of_last fun _ _ => ends_pure trivial
  | storeUpvalue index =>
    exact ends_of_last fun _ _ => ends_of_last fun _ _ => ends_of_last fun _ _ => ends_pure trivial
  | loadGlobal name => exact ends_of_last fun _ _ => ends_of_last fun _ _ => ends_pure trivial
  | storeGlobal name => exact ends_of_last fun _ _ => ends_of_last fun _ _ => ends_pure trivial
  | makeClosure function captures =>
    exact ends_of_last fun _ _ => ends_of_last fun _ _ => ends_of_last fun _ _ => ends_pure trivial
  | call count => exact call_isPlain count next store
  | ret count => exact leaveFrame_isPlain count store
  | raise => exact ends_of_last fun _ _ => ends_fail trivial
  | yield count => cases plain
  | createCoroutine => cases plain
  | resumeCoroutine count => cases plain
  | coroutineStatus => cases plain
  | currentCoroutine => cases plain
  | _ => exact ends_of_last fun _ _ => ends_pure trivial

end Store

end CoroutineVM
