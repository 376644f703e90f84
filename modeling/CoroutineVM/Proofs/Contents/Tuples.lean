import CoroutineVM.Proofs.Contents.Machines
import CoroutineVM.Proofs.Layout.Blocks

/-!
# Tuples do not settle

A tuple is what several values are on their way from one place to another. Whatever tuples a host
hands in, none gets into a table, into a cell or among the arguments of a frame, because a value is
collapsed or spread wherever it is to stay. And a tuple is never put into another one by the code
itself, so that all tuples are flat if those are that the host puts on a stack as they are.

The arguments of a frame are found by their number, which is recorded as a floating-point number.
What is said about them, and about the tuples that code makes of them, therefore supposes that no
stack of the run has ever held more than 2^53 values. Nothing of the kind is needed for tables and
cells.
-/

namespace CoroutineVM

open Processor

variable {W : Type} {host : Host W} {chunk : Chunk}

/-- Every closure and every error may be there. Cells hold no tuples, and where `flat` holds,
neither do tuples. -/
def Regime.ofTuples (chunk : Chunk) (flat : Prop) : Regime where
  chunk := chunk
  closure := fun _ => True
  raised := fun _ => True
  single := True
  flat := flat
  single_of_flat := fun _ => trivial
  raises := fun _ _ => trivial
  misses := fun _ _ _ => trivial

/-- This regime asks nothing of closures, so that every value is admitted and tuples alone
matter. -/
theorem Regime.allows_ofTuples {flat : Prop} (value : Value) : (ofTuples chunk flat).Allows value :=
  fun _ _ => trivial

/-- The arguments of a frame are there, as many as have been recorded, and none of them is a
tuple. -/
def Processor.Supplied (processor : Processor) (frame : Frame) : Prop :=
  ∃ count, (processor.values.get? frame.countSlot).bind countOf? = some count ∧
    (processor.block frame count).length = count ∧
    ∀ value ∈ processor.block frame count, value.isTuple = false

/-- A frame that has been supplied with arguments finds no tuple among them, since the number that
it finds is the one that they were counted with. -/
theorem Processor.Supplied.clear {processor : Processor} {frame : Frame}
    (supplied : processor.Supplied frame) : processor.Clear frame := by
  obtain ⟨own, found, _, single⟩ := supplied
  intro count counted
  obtain rfl : own = count := Option.some.inj (found.symm.trans counted)
  exact single

/-- The arguments of every frame in a pile are as they were put there: the frame finds their number
in its slot and as many values below, none of which is a tuple. -/
theorem Piled.supplied {processor : Processor} {frames : List Frame}
    (piled : Piled chunk processor.values.toList frames) {frame : Frame} (member : frame ∈ frames) :
    processor.Supplied frame := by
  induction frames with
  | nil => cases member
  | cons top rest inductionHypothesis =>
    obtain ⟨⟨count, callee, window, single⟩, below⟩ := piled
    obtain rfl | member := List.mem_cons.mp member
    · have deep := window.deep
      have height := window.height
      have split : processor.block frame count =
          (processor.values.toList.drop (frame.countSlot - count)).take
            (frame.countSlot - (frame.countSlot - count)) := by
        rw [block, Array.toList_extract, List.extract_eq_take_drop]
        rfl
      refine ⟨count, ?_, ?_, fun value inside => ?_⟩
      · rw [BoundedStack.get?_eq]
        exact window.reads
      · rw [split, List.length_take, List.length_drop, Frame.countSlot]
        omega
      · rw [split] at inside
        obtain ⟨index, found⟩ := List.mem_iff_getElem?.mp inside
        have upper := (List.getElem?_eq_some_iff.mp found).1
        rw [List.length_take] at upper
        rw [List.getElem?_take_of_lt (by omega), List.getElem?_drop] at found
        exact single _ value (Nat.le_add_right _ _) (by omega) found
    · exact inductionHypothesis below member

/-- No stack of the run has held more values than a number of arguments can tell. -/
def Counted (trace : List (Stage W)) (machine : Machine W) : Prop :=
  machine.Countable ∧ ∀ stage ∈ trace, stage.before.Countable

section

variable {settings : Settings} {thread : ThreadId} {world : W} {trace : List (Stage W)}
  {machine : Machine W}

/-- A stack that may not hold more never has. So nothing need be asked of the run if the capacity of
the settings is within the bound. -/
theorem Machine.Traces.counted
    (traces : Machine.Traces host (.new (.initial chunk settings thread) world) trace machine)
    (small : settings.valueCapacity ≤ 2 ^ 53) : Counted trace machine := by
  have countable : ∀ {trace machine},
      Machine.Traces host (.new (.initial chunk settings thread) world) trace machine →
        machine.Countable := by
    intro trace machine traces
    obtain ⟨sound, lasts⟩ := reachable_sound (guardsAllowed host _) ⟨world, traces.leads⟩
    exact sound.countable (lasts.settings ▸ small)
  refine ⟨countable traces, fun stage member => ?_⟩
  obtain ⟨later, earlier, rfl⟩ := List.mem_iff_append.mp member
  exact countable traces.earlier

/-- The arguments of every frame are there, and none is a tuple. -/
theorem Machine.Traces.supplied
    (traces : Machine.Traces host (.new (.initial chunk settings thread) world) trace machine)
    (counted : Counted trace machine) (id : CoroutineId) {frame : Frame}
    (member : frame ∈ (machine.store.processor id).frames.toList) :
    (machine.store.processor id).Supplied frame := by
  have blocks := blocks_of_leads (traces.leadsWhile counted.2 counted.1) id
  exact blocks.piled.supplied (List.mem_reverse.mpr member)

/-- What the code may copy next at any stage of a run are arguments, as long as no stack has held
more values than can be counted. What comes before a stage is a run itself, which is where they have
been put there. -/
theorem Machine.Traces.clear_before
    (traces : Machine.Traces host (.new (.initial chunk settings thread) world) trace machine)
    (counted : ∀ stage ∈ trace, stage.before.Countable) {stage : Stage W} (member : stage ∈ trace) :
    stage.before.Clear := by
  intro id pointer _ frame top
  obtain ⟨later, earlier, rfl⟩ := List.mem_iff_append.mp member
  have before : Counted earlier stage.before :=
    ⟨counted stage member, fun other inside => counted other
      (List.mem_append_right later (List.mem_cons_of_mem stage inside))⟩
  rw [BoundedStack.top?_eq] at top
  exact (traces.earlier.supplied before id (List.mem_of_getLast? top)).clear

/-- A run obeys the regime if its host puts no tuple into a cell and, where tuples are to be flat,
only flat ones on a stack. Copies of arguments are the one exception that the regime leaves open,
and they are as they should be by the lemma above. -/
theorem Machine.Traces.obeys_ofTuples {flat : Prop}
    (traces : Machine.Traces host (.new (.initial chunk settings thread) world) trace machine)
    (cells : ∀ stage ∈ trace, ∀ value, (stage.edit? host).bind Edit.cellValue? = some value →
      value.isTuple = false)
    (placed : flat → ∀ stage ∈ trace, ∀ value, stage.placed? host = some value → value.Flat)
    (counted : flat → ∀ stage ∈ trace, stage.before.Countable) :
    machine.Obeys (.ofTuples chunk flat) := by
  refine (Machine.Traces.obeys traces ?_ (fun flat _ => traces.clear_before (counted flat))
    fun _ _ _ _ _ => trivial).1
  intro later stage earlier split _
  have member : stage ∈ trace := split ▸ List.mem_append_right later List.mem_cons_self
  exact ⟨fun value _ => Regime.allows_ofTuples value,
    fun value given =>
      ⟨Regime.allows_ofTuples value, fun flat => placed flat stage member value given⟩,
    fun value cell => ⟨Regime.allows_ofTuples value, fun _ => cells stage member value cell⟩,
    fun _ _ => trivial⟩

/-- What holds of the tuples in a machine while its host puts none into a cell. -/
structure Machine.Transient (host : Host W) (trace : List (Stage W)) (machine : Machine W) :
    Prop where
  /-- No table, that of the globals included, holds a tuple or nil. -/
  tables : ∀ table ∈ machine.store.tables.contents.toList, ∀ entry ∈ table.entries,
    entry.2.isTuple = false ∧ entry.2 ≠ .nil
  cells : ∀ value ∈ machine.store.cells.toList, value.isTuple = false
  /-- No argument of any frame is a tuple. -/
  arguments : Counted trace machine → ∀ id, ∀ frame ∈ (machine.store.processor id).frames.toList,
    (machine.store.processor id).Supplied frame
  /-- If what the host puts on a stack as it is is flat, then so is everything on a stack, every
  outcome, and everything that a host function is told. -/
  flat : Counted trace machine →
    (∀ stage ∈ trace, ∀ value, stage.placed? host = some value → value.Flat) →
      (∀ id, ∀ value ∈ (machine.store.processor id).values.toList, value.Flat) ∧
      (∀ exit, machine.focus = .settled (.ok exit) → exit.value.Flat) ∧
      ∀ id event, machine.focus = .host id event → ∀ value ∈ event.values, value.Flat

/-- Tuples are transient in every run in which the host puts none into a cell: none is found in a
table, in a cell, among the arguments of a frame or, if the host brings only flat ones, in another
tuple. That arguments are found again needs their number to be exact, and this is asked of the
stacks of the run for those parts only. -/
theorem tuples_transient
    (traces : Machine.Traces host (.new (.initial chunk settings thread) world) trace machine)
    (cells : ∀ stage ∈ trace, ∀ value, (stage.edit? host).bind Edit.cellValue? = some value →
      value.isTuple = false) :
    machine.Transient host trace := by
  have obeys : machine.Obeys (.ofTuples chunk False) :=
    traces.obeys_ofTuples cells (fun flat => flat.elim) fun flat => flat.elim
  refine ⟨?_, ?_, fun counted id frame member => traces.supplied counted id member, ?_⟩
  · intro table member entry inside
    have isEntry := (obeys.store.tables table member entry inside).2
    refine ⟨Value.isTuple_of_isEntry isEntry, fun nil => ?_⟩
    rw [nil] at isEntry
    cases isEntry
  · exact fun value member => (obeys.store.cells value member).single trivial
  · intro counted placed
    have flat : machine.Obeys (.ofTuples chunk True) :=
      traces.obeys_ofTuples cells (fun _ => placed) fun _ => counted.2
    refine ⟨fun id value member =>
      ((flat.store.processors id).values value member).flat trivial, ?_, ?_⟩
    · intro exit settled
      have focus := flat.focus
      rw [settled] at focus
      exact focus.value.flat trivial
    · intro id event hosts value member
      have focus := flat.focus
      rw [hosts] at focus
      exact (focus.values value member).flat trivial

end

/-- A main body that makes a tuple of what it finds in a global. -/
def packingChunk : Chunk := ⟨#[⟨"main", 0, 0, false⟩], #[.loadGlobal "given", .tuple 1, .ret 1]⟩

/-- The host stores a tuple in a tuple. -/
def packingSupply : Operation :=
  .edit (.setEntry Store.globals "given" (.tuple [.tuple [.boolean true, .nil], .nil]))

/-- The script when that has been stored. -/
def packingStart : Machine Unit := .enter (packingSupply.begin (.sample packingChunk)) () []

/-- The script after so many steps. -/
def packingMachine : Nat → Machine Unit
  | 0 => .enter ((Operation.call .mainBody []).begin packingStart.store) () []
  | steps + 1 => (packingMachine steps).step .silent

/-- What has happened when the tuple has been made. -/
def packingTrace : List (Stage Unit) :=
  [.steps (packingMachine 1), .steps (packingMachine 0), .begins packingStart (.call .mainBody []),
    .begins (.new (.sample packingChunk) ()) packingSupply]

/-- Of a tuple in a tuple that the host stores, only the first value is left. Nothing is put into a
cell in this run, and nothing is put on a stack by the host but a closure that is called. -/
theorem packed_global_flat :
    Machine.Traces Host.silent (.new (.sample packingChunk) ()) packingTrace (packingMachine 2) ∧
      (packingMachine 2).Transient Host.silent packingTrace ∧
      ((packingMachine 2).store.processor Store.main).values.top? = some (.tuple [.boolean true]) ∧
      (Value.tuple [.boolean true]).Flat := by
  have traces : Machine.Traces Host.silent (.new (.sample packingChunk) ()) packingTrace
      (packingMachine 2) :=
    ((Machine.Traces.stays.begins packingSupply () rfl).begins (.call .mainBody [])
      () rfl).steps.steps
  have counted : Counted packingTrace (packingMachine 2) := traces.counted (by decide)
  have stages : ∀ stage ∈ packingTrace, (∃ before, stage = .steps before) ∨
      stage = .begins packingStart (.call .mainBody []) ∨
      stage = .begins (.new (.sample packingChunk) ()) packingSupply := by
    simp [packingTrace]
  have transient : (packingMachine 2).Transient Host.silent packingTrace := by
    refine tuples_transient traces fun stage member value cell => ?_
    obtain ⟨before, rfl⟩ | rfl | rfl := stages stage member
    · simp [(Stage.silent_steps _).2.1] at cell
    · cases cell
    · cases cell
  have packed : ((packingMachine 2).store.processor Store.main).values.top? =
      some (.tuple [.boolean true]) := by
    cbv
  have placed : ∀ stage ∈ packingTrace, ∀ value, stage.placed? Host.silent = some value →
      value.Flat := by
    intro stage member value placed
    obtain ⟨before, rfl⟩ | rfl | rfl := stages stage member
    · rw [(Stage.silent_steps _).1 value (Stage.mem_of_placed placed)]
      trivial
    · cases placed
    · cases placed
  refine ⟨traces, transient, packed, (transient.flat counted placed).1 Store.main _ ?_⟩
  exact List.mem_of_getLast? ((BoundedStack.top?_eq _).symm.trans packed)

end CoroutineVM
