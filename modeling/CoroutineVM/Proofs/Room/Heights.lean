import CoroutineVM.Proofs.Stack
import CoroutineVM.Proofs.Termination.Bounds

/-!
# How high stacks grow

A processor puts values and frames on its stacks, and takes values from them, as stacks allow. So
neither stack of any processor is ever higher than the settings say, wherever a run leads. Together
with the law of stacks this is `stacks_bounded`.
-/

namespace CoroutineVM

open BoundedStack

namespace Processor

/-- What a processor does with its stacks is what stacks do. Only how far down values may be taken
is a matter of its own, and where it takes none the stacks stay as they are. -/
structure UsesStacks (processor : Processor) : Prop where
  push : ∀ value, Processor.push value processor =
    match processor.values.push? value with
    | some values => (.ok (), { processor with values := values })
    | none => (.error (.stackOverflow processor.values.capacity), processor)
  pop : processor.base < processor.values.height → ∃ value values,
    processor.values.pop? = some (value, values) ∧
      Processor.pop processor = (.ok value, { processor with values := values })
  popMany : ∀ count, processor.base + count ≤ processor.values.height → ∃ taken values,
    processor.values.popMany? count = some (taken, values) ∧
      Processor.popMany count processor = (.ok taken, { processor with values := values })
  popNothing : processor.values.height ≤ processor.base →
    ∃ error, Processor.pop processor = (.error error, processor)
  popTooMany : ∀ count, processor.values.height < processor.base + count →
    ∃ error, Processor.popMany count processor = (.error error, processor)
  pushFrame : ∀ closure entryPoint returnPoint,
    Processor.pushFrame closure entryPoint returnPoint processor =
      match processor.frames.push? ⟨processor.values.height, returnPoint, closure.scope, entryPoint,
        closure.function⟩ with
      | some frames => (.ok (), { processor with frames := frames })
      | none => (.error (.stackOverflow processor.frames.capacity), processor)

/-- What a processor does to its stacks are the operations that stacks have; it does not get at
their contents in any other way. -/
theorem usesStacks (processor : Processor) : processor.UsesStacks := by
  constructor
  case push =>
    intro value
    rw [push, push?]
    split <;> rfl
  case pop =>
    intro inside
    obtain ⟨value, top⟩ := processor.values.exists_top? (by omega)
    refine ⟨value, _, by rw [pop?, top, Option.map_some], ?_⟩
    simp only [pop, Nat.not_le.mpr inside, if_false, top]
  case popMany =>
    intro count inside
    have enough : count ≤ processor.values.height := by omega
    exact ⟨_, _, if_pos enough, if_neg (Nat.not_lt.mpr inside)⟩
  case popNothing => exact fun outside => ⟨_, if_pos outside⟩
  case popTooMany => exact fun count outside => ⟨_, if_pos outside⟩
  case pushFrame =>
    intro closure entryPoint returnPoint
    rw [pushFrame, push?]
    split <;> rfl

/-- Nothing is pushed where there is no room for it. -/
theorem push_refused {processor : Processor} (value : Value)
    (full : processor.values.capacity ≤ processor.values.height) :
    Processor.push value processor =
      (.error (.stackOverflow processor.values.capacity), processor) := by
  rw [processor.usesStacks.push, (push?_eq_none_iff value).mpr full]

/-- Neither stack is higher than the settings say. -/
structure Bounded (settings : Settings) (processor : Processor) : Prop where
  values : processor.values.height ≤ settings.valueCapacity
  frames : processor.frames.height ≤ settings.frameCapacity

end Processor

variable {W : Type} {host : Host W} {chunk : Chunk} {settings : Settings} {thread : ThreadId}
  {operations : List Operation} {machine : Machine W}

/-- Wherever a run leads, the stacks of every processor are within the settings, which stay what
they were when the script was made. -/
theorem reachable_bounded
    (reached : Machine.Reachable host (.initial chunk settings thread) operations machine)
    (id : CoroutineId) : (machine.store.processor id).Bounded settings := by
  obtain ⟨sound, lasts⟩ := reachable_sound (guardsAllowed host operations) reached
  have roomy : Roomy machine.store.settings.valueCapacity (machine.store.processor id) :=
    (sound.coroutines id).supplied.roomy
  rw [lasts.settings] at roomy
  have fits := reachable_fits reached id
  exact ⟨roomy.height, Nat.le_trans fits.room fits.limited⟩

/-- A stack is a list of no more items than it may have, and in every run both stacks of every
processor have no more than the settings say. The first part is the law of stacks, and the second
one holds because a processor uses its stacks in the ways of that law and its capacities are never
changed. -/
theorem stacks_bounded :
    (∀ {α : Type} (capacity : Nat) (uses : List (Use α)),
      Lists capacity uses (inTurn BoundedStack.use uses (.empty capacity)).2) ∧
    (∀ processor : Processor, processor.UsesStacks) ∧
    ∀ {W : Type} {host : Host W} {chunk : Chunk} {settings : Settings} {thread : ThreadId}
      {operations : List Operation} {machine : Machine W},
      Machine.Reachable host (.initial chunk settings thread) operations machine →
        ∀ id, (machine.store.processor id).Bounded settings :=
  ⟨lists_inTurn, Processor.usesStacks, reachable_bounded⟩

/-- A function that has called itself for as long as there was room for frames. -/
def fullMachine : Machine Unit :=
  .run .silent 6 (.enter ((Operation.call .mainBody []).begin (.sample recursingChunk)) () [])

/-- The machine of this example is reached: the function calls itself until its stack is full. -/
theorem reachable_fullMachine :
    Machine.Reachable Host.silent (.sample recursingChunk) [.call .mainBody []] fullMachine :=
  ⟨(), (Machine.Leads.stays.operates (.call .mainBody []) () rfl).run 6⟩

/-- Both of its stacks have then grown as high as they may, and the next value is refused. A stack
that is full and gives back what it has is the list that it was. -/
theorem full_stacks_bounded :
    (fullMachine.store.processor Store.main).Bounded ⟨8, 4, true, ""⟩ ∧
      (fullMachine.store.processor Store.main).values.height = 8 ∧
      (fullMachine.store.processor Store.main).frames.height = 4 ∧
      Processor.push .nil (fullMachine.store.processor Store.main) =
        (.error (.stackOverflow 8), fullMachine.store.processor Store.main) ∧
      (inTurn BoundedStack.use [.push 1, .push 2, .push 3, .popMany 2, .popMany 1] (.empty 2)).1 =
        [.done, .done, .full, .items (some [1, 2]), .items none] := by
  have bounded := stacks_bounded.2.2 reachable_fullMachine Store.main
  have high : (fullMachine.store.processor Store.main).values.height = 8 := by
    decide +kernel
  have room : (fullMachine.store.processor Store.main).values.capacity = 8 := by
    decide +kernel
  have higher : (fullMachine.store.processor Store.main).frames.height = 4 := by
    decide +kernel
  -- The machine is no longer needed as the outcome of its steps.
  generalize fullMachine.store.processor Store.main = processor at *
  refine ⟨bounded, high, higher, ?_, ?_⟩
  · rw [Processor.push_refused .nil (by omega), room]
  · rw [(stacks_bounded.1 2 _).answers]
    decide

end CoroutineVM
