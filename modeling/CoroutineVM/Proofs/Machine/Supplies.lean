import CoroutineVM.Proofs.Machine.Handles

/-!
# What a coroutine has to go on with

Besides its stacks a processor has little: the function of a coroutine that has not started, the
place where a suspended one goes on, the permission to yield, the guard, and the capacities of the
stacks. Each of these follows from the marks of the coroutine as well, since an entry saves what it
changes and the matching end puts it back.
-/

namespace CoroutineVM

open Processor

variable {rules : Rules} {id : CoroutineId}

/-! ### Room -/

/-- There are no more values than fit, and no more fit than so many. -/
structure Roomy (limit : Nat) (processor : Processor) : Prop where
  room : processor.values.height ≤ processor.values.capacity
  limited : processor.values.capacity ≤ limit

variable {limit : Nat}

/-- Work on the stacks keeps within their capacity, which it does not change. -/
theorem Roomy.aligned {before after : Processor} (roomy : Roomy limit before)
    (aligned : Aligned before after) : Roomy limit after :=
  ⟨aligned.room roomy.room, aligned.valueCapacity ▸ roomy.limited⟩

/-- A bound on the capacity may be weakened. -/
theorem Roomy.mono {processor : Processor} (roomy : Roomy limit processor) {greater : Nat}
    (within : limit ≤ greater) : Roomy greater processor :=
  ⟨roomy.room, Nat.le_trans roomy.limited within⟩

/-- So the height is bounded as well. -/
theorem Roomy.height {processor : Processor} (roomy : Roomy limit processor) :
    processor.values.height ≤ limit := Nat.le_trans roomy.room roomy.limited

/-- Nothing but the stacks differs after a call has been prepared, also when this has failed. -/
theorem aligned_enterFromHost {chunk : Chunk} {callee : Option Value} {arguments : List Value}
    {before after : Processor} {entered : Except ScriptError Nat}
    (prepared : enterFromHost chunk callee arguments before = (entered, after)) :
    Aligned before after := by
  obtain ⟨pointer, _, below, called, frame, _, opened, _⟩ | ⟨error, _, grows, _⟩ :=
    (enterFromHost_ends chunk callee arguments before).either prepared
  · exact opened.toAligned
  · exact grows.toAligned

/-- Nothing but the stacks differs after an instruction, however it ends: in each case it is work in
the window, the opening of a frame or the dropping of one. -/
theorem aligned_effect {chunk : Chunk} {flow : Flow} {before after : Processor}
    (effect : Store.Effect chunk flow before after) : Aligned before after := by
  cases effect with
  | stays keeps => exact keeps.toAligned
  | opens keeps opened exact returns => exact keeps.toAligned.trans opened.toAligned
  | drops keeps framed dropped returns => exact keeps.toAligned.trans dropped.toAligned
  | leaves keeps framed dropped returns => exact keeps.toAligned.trans dropped.toAligned
  | yields keeps allowed => exact keeps.toAligned
  | callsHost keeps => exact keeps.toAligned
  | resumes keeps => exact keeps.toAligned

/-- The same of an instruction that fails, a lost frame included. -/
theorem aligned_falters {before after : Processor} (effect : Store.Falters before after) :
    Aligned before after := by
  cases effect with
  | keeps keeps => exact keeps.toAligned
  | loses keeps lost => exact keeps.toAligned.trans lost.toAligned

/-- A call of the host enters the guard and takes the permission to yield before it is prepared, and
these are then as they were set. -/
theorem aligned_of_calls {chunk : Chunk} {callee : Option Value} {arguments : List Value}
    {before after : Processor} {guard : ThreadGuard} {entered : Except ScriptError Nat}
    (prepared : enterFromHost chunk callee arguments
      { before with guard := guard, mayYield := false } = (entered, after)) :
    after.entry = before.entry ∧ after.savedPointer = before.savedPointer ∧
      after.mayYield = false ∧ after.guard = guard ∧
        ∀ limit, Roomy limit before → Roomy limit after := by
  have aligned := aligned_enterFromHost prepared
  refine ⟨aligned.entry, aligned.savedPointer, aligned.mayYield, aligned.guard, ?_⟩
  intro limit roomy
  exact ⟨aligned.room roomy.room, aligned.valueCapacity ▸ roomy.limited⟩

/-! ### The permission to yield -/

/-- A call takes the permission to yield away and keeps what it found, down to the value that nobody
has changed. -/
def Flags (ground : Bool) : List Mark → Bool → Prop
  | [], flag => flag = ground
  | .call _ _ saved :: rest, flag => flag = false ∧ Flags ground rest saved
  | .resume _ :: rest, flag | .wake :: rest, flag | .borrow :: rest, flag => Flags ground rest flag

/-- The permission to yield goes with the marks: a call saves it where it takes it away, and the end
of that call finds it there. -/
theorem Inner.flags {before after : Seen} {ground : Bool} (move : Inner rules before after)
    (flags : Flags ground before.marks before.coroutine.processor.mayYield) :
    Flags ground after.marks after.coroutine.processor.mayYield := by
  cases move with
  | executes driven effect => exact (aligned_effect effect).mayYield ▸ flags
  | falters driven effect allowed => exact (aligned_falters effect).mayYield ▸ flags
  | works driven keeps unfinished reaches => exact keeps.mayYield ▸ flags
  | leaves unfinished => exact flags
  | calls used unfinished admitted prepared =>
    obtain ⟨_, _, mayYield, _⟩ := aligned_of_calls prepared
    exact ⟨mayYield, flags⟩
  | closesCall => exact flags.2
  | waits driven unfinished running => exact flags
  | wakes => exact flags
  | guarded allowed operated => exact flags

/-! ### The guard -/

/-- A guard that a thread has entered so many times more. -/
def nested (ground : ThreadGuard) (thread : ThreadId) : Nat → ThreadGuard
  | 0 => ground
  | levels + 1 => ⟨some thread, ground.nesting + levels + 1⟩

/-- A guard that was free is as deep as it has been entered. -/
theorem nested_free_nesting (thread : ThreadId) (levels : Nat) :
    (nested .free thread levels).nesting = levels := by
  cases levels with
  | zero => rfl
  | succ levels => exact congrArg (· + 1) (Nat.zero_add levels)

/-- A guard has an owner exactly while someone is inside. -/
def Consistent (guard : ThreadGuard) : Prop := guard.owner = none ↔ guard.nesting = 0

/-- An entry that is admitted tells the new guard, and that the thread owns it already or nobody
does. -/
theorem enter_eq {guard entered : ThreadGuard} {thread : ThreadId}
    (admitted : guard.enter thread = .ok entered) :
    entered = ⟨some thread, guard.nesting + 1⟩ ∧
      (guard.owner = none ∨ guard.owner = some thread) := by
  rw [ThreadGuard.enter] at admitted
  split at admitted
  next owner =>
    cases admitted
    exact ⟨rfl, .inl owner⟩
  next owner owned =>
    split at admitted
    next same =>
      cases admitted
      exact ⟨rfl, .inr (same ▸ owned)⟩
    next => cases admitted

/-- After an entry someone is inside, and there is an owner. -/
theorem consistent_enter {guard entered : ThreadGuard} {thread : ThreadId}
    (admitted : guard.enter thread = .ok entered) : Consistent entered := by
  obtain ⟨rfl, _⟩ := enter_eq admitted
  simp [Consistent]

/-- Leaving keeps a guard in order: the owner goes with the last level. -/
theorem Consistent.leave {guard : ThreadGuard} (consistent : Consistent guard) :
    Consistent guard.leave.2 := by
  obtain ⟨owner, nesting⟩ := guard
  match nesting with
  | 0 => exact consistent
  | 1 => simp [Consistent, ThreadGuard.leave, ThreadGuard.free]
  | levels + 2 =>
    simp only [Consistent, ThreadGuard.leave] at consistent ⊢
    simpa using consistent

/-- Whoever is let in finds the guard one level deeper. -/
theorem nested_enter {ground entered : ThreadGuard} {thread : ThreadId} {levels : Nat}
    (admitted : (nested ground thread levels).enter thread = .ok entered) :
    entered = nested ground thread (levels + 1) := by
  obtain ⟨rfl, _⟩ := enter_eq admitted
  cases levels <;> rfl

/-- Leaving undoes an entry, when the guard was in order and let the thread in. With the last level
it gives back the owner that was there, which is nobody or the thread itself. -/
theorem nested_leave {ground : ThreadGuard} {thread : ThreadId} (consistent : Consistent ground)
    (admits : ground.owner = none ∨ ground.owner = some thread) (levels : Nat) :
    (nested ground thread (levels + 1)).leave.2 = nested ground thread levels := by
  obtain ⟨owner, nesting⟩ := ground
  match nesting, levels with
  | 0, 0 =>
    have free : owner = none := consistent.mpr rfl
    simp [nested, ThreadGuard.leave, ThreadGuard.free, free]
  | inside + 1, 0 =>
    have owned : owner = some thread := by
      refine admits.resolve_left fun free => ?_
      simpa using consistent.mp free
    simp [nested, ThreadGuard.leave, owned]
  | inside, levels + 1 => simp [nested, ThreadGuard.leave, Nat.add_assoc]

/-- As long as nobody operates the guard by hand, it is as deep as calls and resumes wait to be
closed: each of them enters it once and leaves it once. -/
theorem Inner.guard {before after : Seen} {ground : ThreadGuard} (consistent : Consistent ground)
    (admits : ground.owner = none ∨ ground.owner = some rules.thread) (spared : ¬ rules.guards)
    (move : Inner rules before after)
    (guard : before.coroutine.processor.guard = nested ground rules.thread (depth before.marks)) :
    after.coroutine.processor.guard = nested ground rules.thread (depth after.marks) := by
  cases move with
  | executes driven effect => exact (aligned_effect effect).guard ▸ guard
  | falters driven effect allowed => exact (aligned_falters effect).guard ▸ guard
  | works driven keeps unfinished reaches => exact keeps.guard ▸ guard
  | leaves unfinished => exact guard
  | calls used unfinished admitted prepared =>
    obtain ⟨_, _, _, entered, _⟩ := aligned_of_calls prepared
    simp only at guard
    rw [guard] at admitted
    exact entered.trans (nested_enter admitted)
  | closesCall =>
    simp only at guard
    simp only [guard]
    exact nested_leave consistent admits _
  | waits driven unfinished running => exact guard
  | wakes => exact guard
  | guarded allowed operated => exact absurd allowed spared

/-! ### All of it -/

/-- A processor that is in use has neither a function to start nor a place to go on at; the
permission to yield and the guard are as the marks tell. -/
structure Supplied (rules : Rules) (id : CoroutineId) (seen : Seen) : Prop where
  roomy : Roomy rules.settings.valueCapacity seen.coroutine.processor
  spent : id = Store.main ∨ seen.marks ≠ [] →
    seen.coroutine.processor.entry = none ∧ seen.coroutine.processor.savedPointer = none
  consumed : seen.coroutine.processor.savedPointer = none ∨ seen.coroutine.processor.entry = none
  flags : Flags true seen.marks seen.coroutine.processor.mayYield
  consistent : Consistent seen.coroutine.processor.guard
  guard : ¬ rules.guards →
    seen.coroutine.processor.guard = nested .free rules.thread (depth seen.marks)

/-- A guard that nobody has entered is in order. -/
theorem consistent_free : Consistent .free := by
  simp [Consistent, ThreadGuard.free]

/-- A call, wherever its function comes from. It adds one mark, one level of the guard and one saved
permission. -/
theorem Supplied.calls {coroutine : Coroutine} {marks : List Mark} {before after : Standing}
    {callee : Option Value} {arguments : List Value} {guard : ThreadGuard} {processor : Processor}
    {entered : Except ScriptError Nat} (valueHeight frameHeight : Nat)
    (supplied : Supplied rules id ⟨coroutine, marks, before⟩) (marked : marks ≠ [])
    (admitted : coroutine.processor.guard.enter rules.thread = .ok guard)
    (prepared : enterFromHost rules.chunk callee arguments
      { coroutine.processor with guard := guard, mayYield := false } = (entered, processor)) :
    Supplied rules id ⟨{ coroutine with processor := processor },
      .call valueHeight frameHeight coroutine.processor.mayYield :: marks, after⟩ := by
  obtain ⟨entry, saved, mayYield, owned, room⟩ := aligned_of_calls prepared
  have empty := supplied.spent (.inr marked)
  rw [← entry, ← saved] at empty
  refine ⟨room _ supplied.roomy, fun _ => empty, .inl empty.2, ⟨mayYield, supplied.flags⟩,
    owned ▸ consistent_enter admitted, ?_⟩
  intro spared
  have nesting := supplied.guard spared
  dsimp only at nesting
  rw [nesting] at admitted
  exact owned.trans (nested_enter admitted)

/-- A coroutine in use keeps its function, the place where it goes on, and enough room. Both are
used up or set only when its resume begins or ends. -/
theorem Inner.keepsSupplies {before after : Seen} (move : Inner rules before after) :
    after.coroutine.processor.entry = before.coroutine.processor.entry ∧
      after.coroutine.processor.savedPointer = before.coroutine.processor.savedPointer ∧
      ∀ limit, Roomy limit before.coroutine.processor → Roomy limit after.coroutine.processor := by
  cases move with
  | executes driven effect =>
    have aligned := aligned_effect effect
    exact ⟨aligned.entry, aligned.savedPointer, fun _ roomy => roomy.aligned aligned⟩
  | falters driven effect allowed =>
    have aligned := aligned_falters effect
    exact ⟨aligned.entry, aligned.savedPointer, fun _ roomy => roomy.aligned aligned⟩
  | works driven keeps unfinished reaches =>
    exact ⟨keeps.entry, keeps.savedPointer, fun _ roomy => roomy.aligned keeps.toAligned⟩
  | leaves unfinished => exact ⟨rfl, rfl, fun _ => id⟩
  | calls used unfinished admitted prepared =>
    obtain ⟨entry, saved, _, _, room⟩ := aligned_of_calls prepared
    exact ⟨entry, saved, room⟩
  | closesCall =>
    refine ⟨rfl, rfl, fun _ roomy => ⟨?_, roomy.limited⟩⟩
    have room := roomy.room
    simp only [restore, BoundedStack.height_truncate, BoundedStack.capacity_truncate] at room ⊢
    omega
  | waits driven unfinished running => exact ⟨rfl, rfl, fun _ => id⟩
  | wakes => exact ⟨rfl, rfl, fun _ => id⟩
  | guarded allowed operated => exact ⟨rfl, rfl, fun _ roomy => ⟨roomy.room, roomy.limited⟩⟩

/-- Guards stay in order under all inner moves, those by hand included: one that belongs to nobody
has no entries, and one with an owner has some. -/
theorem Inner.consistent {before after : Seen} (move : Inner rules before after)
    (consistent : Consistent before.coroutine.processor.guard) :
    Consistent after.coroutine.processor.guard := by
  cases move with
  | executes driven effect => exact (aligned_effect effect).guard ▸ consistent
  | falters driven effect allowed => exact (aligned_falters effect).guard ▸ consistent
  | works driven keeps unfinished reaches => exact keeps.guard ▸ consistent
  | calls used unfinished admitted prepared =>
    obtain ⟨_, _, _, entered, _⟩ := aligned_of_calls prepared
    exact entered ▸ consistent_enter admitted
  | closesCall => exact consistent.leave
  | guarded allowed operated =>
    obtain ⟨thread, entered⟩ | rfl := operated
    · exact consistent_enter entered
    · exact consistent.leave
  | _ => exact consistent

/-- Nobody comes to wait on a coroutine on which nobody has waited before. -/
theorem Inner.marked {before after : Seen} (move : Inner rules before after)
    (marked : after.marks ≠ []) : before.marks ≠ [] := by
  cases move with
  | calls used unfinished admitted prepared => exact used.ne_nil
  | waits driven unfinished running => exact driven.ne_nil
  | closesCall => exact List.cons_ne_nil _ _
  | wakes => exact List.cons_ne_nil _ _
  | _ => exact marked

/-- The moves of a coroutine in use keep it supplied. What has been used up stays so, because a
coroutine that is marked has been marked before. -/
theorem Inner.supplied {before after : Seen} (move : Inner rules before after)
    (supplied : Supplied rules id before) : Supplied rules id after := by
  obtain ⟨entry, saved, room⟩ := move.keepsSupplies
  refine ⟨room _ supplied.roomy, ?_, ?_, move.flags supplied.flags,
    move.consistent supplied.consistent, fun spared =>
      move.guard consistent_free (.inl rfl) spared (supplied.guard spared)⟩
  · rw [entry, saved]
    exact fun inUse => supplied.spent (inUse.imp_right move.marked)
  · rw [entry, saved]
    exact supplied.consumed

/-- A resume uses up the function or the saved place that it begins with, so that a coroutine in use
has neither. -/
theorem Processor.ResumeEntry.rest {chunk : Chunk} {arguments : List Value}
    {before after : Processor} {entered : Except ScriptError Nat}
    (entry : ResumeEntry chunk arguments before entered after)
    (consumed : before.savedPointer = none ∨ before.entry = none) :
    (after.entry = none ∧ after.savedPointer = none) ∧ after.mayYield = before.mayYield ∧
      after.guard = before.guard ∧ ∀ limit, Roomy limit before → Roomy limit after := by
  have room : ∀ {start : Processor}, Aligned start after → start.values = before.values →
      ∀ limit, Roomy limit before → Roomy limit after := by
    intro start aligned same limit roomy
    refine ⟨aligned.room ?_, ?_⟩
    · exact same ▸ roomy.room
    · rw [aligned.valueCapacity, same]
      exact roomy.limited
  cases entry with
  | continues saved grows values =>
    have spent : before.entry = none := consumed.resolve_left (by simp [saved])
    exact ⟨⟨grows.entry.trans spent, grows.savedPointer⟩, grows.mayYield, grows.guard,
      room grows.toAligned rfl⟩
  | overflows saved grows own =>
    have spent : before.entry = none := consumed.resolve_left (by simp [saved])
    exact ⟨⟨grows.entry.trans spent, grows.savedPointer⟩, grows.mayYield, grows.guard,
      room grows.toAligned rfl⟩
  | starts fresh entry prepared =>
    have aligned := aligned_enterFromHost prepared
    exact ⟨⟨aligned.entry, aligned.savedPointer.trans fresh⟩, aligned.mayYield, aligned.guard,
      room aligned rfl⟩
  | spent fresh entry => exact ⟨⟨entry, fresh⟩, rfl, rfl, fun _ => id⟩

/-- Every move keeps a coroutine supplied. A yield saves the place at the end of its resume and not
before, when nobody waits any more. -/
theorem Move.supplied {before after : Seen} (move : Move rules id before after)
    (handled : Handled id before) (supplied : Supplied rules id before) :
    Supplied rules id after := by
  cases move with
  | inner move => exact move.supplied supplied
  | resumes unfinished resumable access admitted prepared =>
    obtain rfl := handled.unmarked_of_free access
    obtain ⟨empty, mayYield, owned, room⟩ :=
      (resumeEntry_of_prepared prepared).rest supplied.consumed
    refine ⟨room _ ⟨supplied.roomy.room, supplied.roomy.limited⟩, fun _ => empty, .inl empty.2,
      mayYield.trans supplied.flags, owned ▸ consistent_enter admitted, ?_⟩
    intro spared
    have nesting := supplied.guard spared
    dsimp only at nesting
    rw [nesting] at admitted
    exact owned.trans (nested_enter admitted)
  | closesResume =>
    obtain ⟨other, resumable, rfl⟩ := handled.shaped
    have unused : ∀ processor : Processor, id = Store.main ∨ ([] : List Mark) ≠ [] →
        processor.entry = none ∧ processor.savedPointer = none := by
      rintro processor (isMain | marked)
      · exact absurd isMain other
      · exact absurd rfl marked
    have empty := supplied.spent (.inr (by simp))
    have guard :=
      fun spared => (congrArg (fun guard => guard.leave.2) (supplied.guard spared)).trans
      (nested_leave consistent_free (.inl rfl) 0)
    unfold Machine.processorAfter
    split
    · exact ⟨⟨supplied.roomy.room, supplied.roomy.limited⟩, unused _, .inr empty.1, supplied.flags,
        supplied.consistent.leave, guard⟩
    · exact ⟨⟨Nat.zero_le _, supplied.roomy.limited⟩, unused _, .inl rfl, supplied.flags,
        supplied.consistent.leave, guard⟩
  | borrows isMain unfinished access =>
    exact ⟨supplied.roomy, fun _ => supplied.spent (.inl isMain), supplied.consumed, supplied.flags,
      supplied.consistent, supplied.guard⟩
  | pushes isMain grows =>
    refine ⟨supplied.roomy.aligned grows.toAligned, ?_, ?_, ?_, ?_, ?_⟩
    · rw [grows.entry, grows.savedPointer]
      exact supplied.spent
    · rw [grows.entry, grows.savedPointer]
      exact supplied.consumed
    · exact grows.mayYield ▸ supplied.flags
    · exact grows.guard ▸ supplied.consistent
    · exact grows.guard ▸ supplied.guard
  | releases =>
    exact ⟨supplied.roomy, fun _ => supplied.spent (.inr (by simp)), supplied.consumed,
      supplied.flags, supplied.consistent, supplied.guard⟩
  | callsTop allowed isMain unfinished admitted prepared =>
    exact supplied.calls _ _ (by simp) admitted prepared
  | holds before after =>
    exact ⟨supplied.roomy, supplied.spent, supplied.consumed, supplied.flags, supplied.consistent,
      supplied.guard⟩
  | born other newborn =>
    obtain ⟨parent, closure, rfl⟩ := newborn
    refine ⟨⟨Nat.zero_le _, Nat.le_refl _⟩, ?_, .inl rfl, rfl, consistent_free, fun _ => rfl⟩
    rintro (isMain | marked)
    · exact absurd isMain other
    · exact absurd rfl marked

end CoroutineVM
