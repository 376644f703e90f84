import CoroutineVM.Proofs.Layout.Upkeep
import CoroutineVM.Proofs.Machine.Steps

/-!
# What holds of a script at all times

A coroutine is sound when its handle, what it has to go on with and its stacks are as its marks
tell. Each of these is an invariant of moves, every step consists of moves, and so does the
beginning of an operation. A script that starts sound therefore stays so, whatever its host does.
Only the layout of the values depends on the capacity of their stacks, because a number of arguments
that is too great is not recorded exactly.
-/

namespace CoroutineVM

open Processor Relation

variable {W : Type} {rules : Rules} {id : CoroutineId} {allowances : Allowances}

/-- A coroutine is as its marks tell, in every respect. -/
structure Sound (rules : Rules) (id : CoroutineId) (seen : Seen) : Prop where
  handled : Handled id seen
  supplied : Supplied rules id seen
  licensed : Licensed seen
  tiered : Tiered id seen
  stacked : rules.settings.valueCapacity ≤ 2 ^ 53 → Stacked rules id seen

/-- Every move keeps a coroutine sound. The parts depend on one another in one order: the handle
comes first, then what there is to go on with, and the stacks rely on both. -/
theorem Move.sound {before after : Seen} (move : Move rules id before after)
    (sound : Sound rules id before) : Sound rules id after := by
  obtain ⟨handled, supplied, licensed, tiered, stacked⟩ := sound
  have roomy := (move.supplied handled supplied).roomy
  exact ⟨move.handled handled, move.supplied handled supplied, move.licensed licensed,
    move.tiered handled tiered, fun small => move.stacked handled tiered supplied.roomy.room
      (Nat.le_trans roomy.height small) (stacked small)⟩

/-- Any number of moves keeps a coroutine sound. -/
theorem Moves.sound {before after : Seen} (moves : Moves rules id before after)
    (sound : Sound rules id before) : Sound rules id after := Moves.induct Move.sound moves sound

/-- A name without a coroutine stands for one that is sound, so that soundness can be claimed of all
names and a new coroutine starts from it. -/
theorem sound_gone (other : id ≠ Store.main) : Sound rules id ⟨.gone, [], .apart⟩ where
  handled := ⟨by simp [Coroutine.gone], trivial, .inl rfl, fun isMain => absurd isMain other,
    fun _ => .inr rfl⟩
  supplied := ⟨⟨Nat.le_refl _, Nat.zero_le _⟩,
    fun inUse => absurd rfl (inUse.resolve_left other), .inl rfl, rfl, consistent_free,
    fun _ => rfl⟩
  licensed := fun _ _ ending => by cases ending
  tiered := ⟨fun inUse => absurd rfl (inUse.resolve_left other), fun _ _ _ => ⟨rfl, rfl⟩,
    fun _ _ saved => absurd rfl saved⟩
  stacked := fun _ => ⟨fun inUse => absurd rfl (inUse.resolve_left other),
    fun _ _ saved => absurd rfl saved⟩

/-- The callee of a call may lie on top of the stack for the length of one operation. In between it
does not matter, because nobody waits on the coroutine and no frame is open. -/
theorem Sound.unmarked {guards before after : Prop} {errors : ScriptError → Prop} {store : Store}
    {seen : Seen} (idle : seen.marks = [])
    (sound : Sound (store.rules ⟨guards, before, errors⟩) id seen) :
    Sound (store.rules ⟨guards, after, errors⟩) id seen := by
  obtain ⟨coroutine, marks, standing⟩ := seen
  obtain rfl : marks = [] := idle
  refine { sound with supplied := ?_, stacked := fun small => ⟨fun inUse => ?_, ?_⟩ }
  · exact { sound.supplied with guard := sound.supplied.guard }
  · have laid := (sound.stacked small).laid inUse
    exact ⟨laid.whole, laid.below⟩
  · exact (sound.stacked small).paused

/-- Every coroutine of a machine is sound. -/
structure Machine.Sound (allowances : Allowances) (machine : Machine W) : Prop where
  orderly : Orderly machine
  coroutines : ∀ id, CoroutineVM.Sound (machine.store.rules allowances) id (machine.seen id)

/-- A machine that advances stays sound: coroutine by coroutine, by the moves that each has made. -/
theorem Advances.sound {before after : Machine W}
    (advances : Advances (before.store.rules allowances) before after)
    (sound : before.Sound allowances) : after.Sound allowances where
  orderly := advances.orderly
  coroutines := fun id => by
    rw [advances.lasts.rules]
    exact (advances.moves id).sound (sound.coroutines id)

/-- Code runs on a coroutine that there is, since someone waits to close what it does. -/
theorem Machine.Sound.known {machine : Machine W} {pointer : Nat} (sound : machine.Sound allowances)
    (coding : machine.focus = .code id pointer) : machine.store.Has id := by
  obtain ⟨store, world, focus, pending⟩ := machine
  obtain rfl : focus = .code id pointer := coding
  exact sound.orderly.known id (driven_code sound.orderly).ne_nil

/-- The coroutine is in use, for the same reason. -/
theorem Machine.Sound.executing {machine : Machine W} {pointer : Nat}
    (sound : machine.Sound allowances) (coding : machine.focus = .code id pointer) :
    machine.store.access id = .executing := by
  obtain ⟨store, world, focus, pending⟩ := machine
  obtain rfl : focus = .code id pointer := coding
  exact (sound.coroutines id).handled.access.mpr (driven_code sound.orderly).ne_nil

/-- What code finds: its stacks are as the marks of its coroutine tell. This is where the bound on
the capacity enters, so that every number of arguments is recorded exactly. -/
theorem Machine.Sound.coding {store : Store} {world : W} {id : CoroutineId} {pointer : Nat}
    {pending : List Pending} (small : store.settings.valueCapacity ≤ 2 ^ 53)
    (sound : Machine.Sound allowances ⟨store, world, .code id pointer, pending⟩) :
    Driven (marks id pending) ∧ (store.rules allowances).ground.Intact (marks id pending)
      (store.processor id).values.toList (store.processor id).activeFrames := by
  have driven : Driven (marks id pending) := driven_of_closing sound.orderly.suits
  have laid := ((sound.coroutines id).stacked small).laid (.inr driven.ne_nil)
  rw [Machine.seen, standing_code, if_pos rfl] at laid
  exact ⟨driven, laid.whole trivial⟩

/-! ### Steps and operations -/

/-- Every step of a sound machine consists of moves. What a host may do is a condition on the
request that it makes in this very step, and not on all that it could ever ask for. -/
theorem Machine.Sound.step {machine : Machine W} (sound : machine.Sound allowances) (host : Host W)
    (own : ∀ error, error.isOwn = true → allowances.errors error)
    (surfaced : ∀ error, machine.focus = .settled (.error error) → allowances.errors error)
    (allowed : ∀ request, machine.request? host = some request → request.touchesGuard = true →
      allowances.guards) :
    Advances (machine.store.rules allowances) machine (machine.step host) :=
  step_advances host sound.orderly own surfaced allowed

/-- At rest it does not matter where the next operation takes its callee from. -/
theorem Machine.Sound.resting {guards before : Prop} {errors : ScriptError → Prop}
    {machine : Machine W} (sound : machine.Sound ⟨guards, before, errors⟩) (after : Prop)
    (rests : machine.atRest = true) : machine.Sound ⟨guards, after, errors⟩ := by
  obtain ⟨store, world, focus, pending⟩ := machine
  match focus, pending, rests with
  | .settled outcome, [], _ =>
    exact ⟨sound.orderly, fun id => (sound.coroutines id).unmarked rfl⟩

/-- The beginning of an operation consists of moves, too. It starts at rest, where nobody waits. -/
theorem Machine.Sound.begin {machine : Machine W} (sound : machine.Sound allowances)
    (rests : machine.atRest = true) (operation : Operation)
    (allowed : operation.touchesGuard = true → allowances.guards)
    (fromTop : operation.isCallTop = true → allowances.fromTop) (world : W) :
    Advances (machine.store.rules allowances) machine
      (Machine.enter (operation.begin machine.store) world []) := by
  obtain ⟨store, earlier, focus, pending⟩ := machine
  match focus, pending, rests with
  | .settled outcome, [], _ => exact begin_advances operation sound.orderly allowed fromTop world

/-- A new script is sound: it has one coroutine, on which nobody waits, with empty stacks. -/
theorem sound_initial (chunk : Chunk) (settings : Settings) (thread : ThreadId) (world : W)
    (outcome : Outcome) :
    Machine.Sound allowances ⟨.initial chunk settings thread, world, .settled outcome, []⟩ := by
  refine ⟨⟨.inl trivial, fun _ marked => absurd rfl marked, Nat.zero_lt_one⟩, fun id => ?_⟩
  by_cases isMain : id = Store.main
  · subst isMain
    refine ⟨⟨?_, trivial, .inl rfl, fun _ => rfl, fun other => absurd rfl other⟩,
      ⟨⟨Nat.zero_le _, Nat.le_refl _⟩, fun _ => ⟨rfl, rfl⟩, .inl rfl, rfl, consistent_free,
        fun _ => rfl⟩, fun _ _ ending => (by cases ending), ?_, fun _ => ?_⟩
    · simp [Machine.seen, Store.coroutine, Store.initial, Store.main]
    · exact .ofMain rfl (.of_leveled rfl)
    · exact .ofMain rfl (.of_intact rfl)
  · have unknown : ¬ (Store.initial chunk settings thread).Has id := by
      rw [Store.Has]
      simpa [Store.initial, Store.main] using isMain
    rw [Machine.seen, Store.coroutine_gone unknown]
    exact sound_gone isMain

end CoroutineVM
