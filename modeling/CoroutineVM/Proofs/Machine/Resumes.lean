import CoroutineVM.Proofs.Machine.Agreement
import CoroutineVM.Proofs.Machine.Calls

/-!
# How a failed resume ends

A resume that is turned away does nothing. One that is let in uses up what its coroutine had to go
on with, so that a failure leaves nothing behind to resume, and the coroutine ought to be dead. When
the resume is closed, though, only the error is looked at, and the refusal of a guard is taken for
one of the coroutine's own guard, which would have come before anything ran. Such a refusal can also
come up from code inside the resume. Then the coroutine gets its status back, without anything to go
on with.
-/

namespace CoroutineVM

open Processor

variable {W : Type} {host : Host W} {rules : Rules} {id target : CoroutineId}

/-! ### Coroutines that are dead -/

/-- A coroutine is dead and nobody waits on it. -/
structure Buried (seen : Seen) : Prop where
  unmarked : seen.marks = []
  dead : seen.coroutine.status = .dead

/-- A coroutine that is dead stays so. A name without a coroutine looks the same, until a coroutine
is created for it. -/
theorem Move.buried {before after : Seen} (move : Move rules id before after)
    (handled : Handled id before) (buried : Buried before) :
    (Buried after ∧ after.coroutine.parent = before.coroutine.parent) ∨
      (before.coroutine.parent = none ∧ after.coroutine.parent ≠ none) := by
  obtain ⟨unmarked, dead⟩ := buried
  have other : id ≠ Store.main := by
    intro isMain
    cases (handled.main isMain).symm.trans dead
  cases move with
  | inner move =>
    have still : after.marks = [] :=
      Classical.byContradiction fun marked => (move.marked_iff handled).mpr marked unmarked
    obtain ⟨_, guard, same⟩ := move.rests handled still
    exact .inl ⟨⟨still, by rw [same]; exact dead⟩, by rw [same]⟩
  | resumes unfinished resumable free admitted prepared =>
    dsimp only at dead
    rw [dead] at resumable
    cases resumable
  | closesResume => cases unmarked
  | borrows isMain unfinished free => exact absurd isMain other
  | pushes isMain grows => exact absurd isMain other
  | releases => cases unmarked
  | callsTop allowed isMain unfinished admitted prepared => exact absurd isMain other
  | holds before after => exact .inl ⟨⟨unmarked, dead⟩, rfl⟩
  | born other newborn =>
    obtain ⟨parent, closure, rfl⟩ := newborn
    exact .inr ⟨rfl, by simp⟩

/-- The parent of a coroutine never changes, so that it tells a coroutine from a name without
one. -/
theorem Move.parent {before after : Seen} (move : Move rules id before after)
    (child : before.coroutine.parent ≠ none) :
    after.coroutine.parent = before.coroutine.parent := by
  cases move with
  | inner move => cases move <;> rfl
  | born other newborn => exact absurd rfl child
  | _ => rfl

/-- Every coroutine has a parent, but for the script's own one. What has none is no coroutine. -/
def Rooted (id : CoroutineId) (seen : Seen) : Prop :=
  id ≠ Store.main → seen.coroutine.parent = none → Buried seen

/-- A coroutine without a parent has made no move but the one by which it is created, and that one
gives it a parent. -/
theorem Move.rooted {before after : Seen} (move : Move rules id before after)
    (handled : Handled id before) (rooted : Rooted id before) : Rooted id after := by
  intro other orphan
  by_cases child : before.coroutine.parent = none
  · obtain ⟨buried, _⟩ | ⟨_, born⟩ := move.buried handled (rooted other child)
    · exact buried
    · exact absurd orphan born
  · exact absurd ((move.parent child).symm.trans orphan) child

/-- So in every run each coroutine but the script's own one has a parent. -/
theorem reachable_rooted {chunk : Chunk} {settings : Settings} {thread : ThreadId}
    {operations : List Operation} {machine : Machine W}
    (reached : Machine.Reachable host (.initial chunk settings thread) operations machine)
    (id : CoroutineId) : Rooted id (machine.seen id) := by
  obtain ⟨world, leads⟩ := reached
  have new : Machine.Reachable host (.initial chunk settings thread) []
      (.new (.initial chunk settings thread) world) := ⟨world, .stays⟩
  refine new.keeps leads (fun move sound => move.rooted sound.handled) ?_
  intro other _
  have unknown : ¬ (Store.initial chunk settings thread).Has id := by
    rw [Store.Has]
    simpa [Store.initial, Store.main] using other
  rw [Machine.new, Machine.seen, Store.coroutine_gone unknown]
  exact ⟨rfl, rfl⟩

/-- A coroutine that is dead stays so for the rest of a run, whatever the host does. No move sets
its status, as only one that can be resumed is entered. -/
theorem Machine.Reachable.dead_stays {chunk : Chunk} {settings : Settings} {thread : ThreadId}
    {earlier later : List Operation} {middle last : Machine W}
    (reached : Machine.Reachable host (.initial chunk settings thread) earlier middle)
    (leads : Machine.Leads host middle later last)
    (child : (middle.store.coroutine id).parent ≠ none) (buried : Buried (middle.seen id)) :
    last.store.status id = .dead := by
  let holds : Seen → Prop := fun seen => Buried seen ∧ seen.coroutine.parent ≠ none
  have final : holds (last.seen id) := by
    refine reached.keeps leads ?_ ⟨buried, child⟩
    intro rules before after move sound held
    obtain ⟨buried, kept⟩ | ⟨orphan, _⟩ := move.buried sound.handled held.1
    · exact ⟨buried, kept ▸ held.2⟩
    · exact absurd orphan held.2
  exact final.1.dead

/-! ### Where resumes begin -/

/-- What a resume from another coroutine begins with: the store, in which that coroutine has become
normal if it is running, and those who wait for it to be woken. -/
inductive Store.Hands (store : Store) (id target : CoroutineId) : Store → List Pending → Prop where
  | waits (running : store.status id = .running) (different : id ≠ target) :
      Store.Hands store id target (store.setStatus id .normal) [.wake id]
  | stays (apart : ¬ (store.status id = .running ∧ id ≠ target)) :
      Store.Hands store id target store []

/-- A resume from another coroutine is one by a handle, in the store that is handed over and with
one more who waits if that coroutine has become normal. -/
theorem Store.Hands.enter {store handed : Store} {waiting : List Pending}
    (hands : store.Hands id target handed waiting) (arguments : List Value) (world : W)
    (outer : List Pending) :
    Machine.enter (store.beginChildResume id target arguments) world outer =
      Machine.enter (handed.beginResume target arguments) world (waiting ++ outer) := by
  cases hands with
  | waits running different =>
    rw [Store.beginChildResume, if_pos ⟨running, different⟩, enter_andThen]
    rfl
  | stays apart =>
    rw [Store.beginChildResume, if_neg apart]
    rfl

/-- To hand over to a coroutine does not change it. -/
theorem Store.Hands.other {store handed : Store} {waiting : List Pending}
    (hands : store.Hands id target handed waiting) (different : target ≠ id) :
    handed.coroutine target = store.coroutine target ∧ handed.thread = store.thread := by
  cases hands with
  | waits running apart => exact ⟨Store.coroutine_modifyCoroutine_other different _, rfl⟩
  | stays apart => exact ⟨rfl, rfl⟩

/-- The places where a resume can begin: the store and the world of the host that it begins in, and
those who wait outside of it. -/
inductive ResumeStarts (host : Host W) (machine : Machine W) (target : CoroutineId)
    (arguments : List Value) : Store → W → List Pending → Prop where
  /-- An instruction resumes the coroutine. -/
  | instruction {id : CoroutineId} {pointer resumeAt : Nat} {instruction : Instruction}
      {after store : Store} {waiting : List Pending} (coding : machine.focus = .code id pointer)
      (found : machine.store.chunk.instruction? pointer = some instruction)
      (executes : Store.execute id instruction (pointer + 1) machine.store =
        (.ok (.resume target arguments resumeAt), after))
      (hands : after.Hands id target store waiting) :
      ResumeStarts host machine target arguments store machine.world
        (waiting ++ .resumeInstruction id resumeAt :: machine.pending)
  /-- A host function has it resumed from the coroutine that it runs on. -/
  | inside {id : CoroutineId} {event : HostEvent} {world : W} {store : Store}
      {waiting : List Pending} (hosting : machine.focus = .host id event)
      (asks : host.respond id event machine.store machine.world = (world, .resume target arguments))
      (hands : machine.store.Hands id target store waiting) :
      ResumeStarts host machine target arguments store world
        (waiting ++ .hostResume id :: machine.pending)
  /-- A host function resumes it through its handle. -/
  | through {id : CoroutineId} {event : HostEvent} {world : W}
      (hosting : machine.focus = .host id event)
      (asks : host.respond id event machine.store machine.world =
        (world, .resumeHandle target arguments)) :
      ResumeStarts host machine target arguments machine.store world
        (.hostResume id :: machine.pending)
  /-- It is resumed from outside while nothing runs. -/
  | outside (rests : machine.atRest = true) (world : W) :
      ResumeStarts host machine target arguments machine.store world []

/-- A run goes on with the resumes that begin in it, whichever way they begin: by the next step of
the machine, or by an operation while it is at rest. -/
theorem ResumeStarts.leads {machine : Machine W} {arguments : List Value} {store : Store}
    {world : W} {outer : List Pending}
    (starts : ResumeStarts host machine target arguments store world outer) :
    ∃ operations, Machine.Leads host machine operations
      (Machine.enter (store.beginResume target arguments) world outer) := by
  obtain ⟨before, earlier, focus, pending⟩ := machine
  cases starts with
  | @instruction id pointer resumeAt instruction after _ waiting coding found executes hands =>
    have steps : Machine.step host ⟨before, earlier, focus, pending⟩ =
        Machine.enter (store.beginResume target arguments) earlier
          (waiting ++ .resumeInstruction id resumeAt :: pending) := by
      obtain rfl : focus = .code id pointer := coding
      simp only [Machine.step, Machine.stepCode, found, executes, hands.enter]
    exact ⟨[], steps ▸ .steps .stays⟩
  | @inside id event _ _ waiting hosting asks hands =>
    have steps : Machine.step host ⟨before, earlier, focus, pending⟩ =
        Machine.enter (store.beginResume target arguments) world
          (waiting ++ .hostResume id :: pending) := by
      obtain rfl : focus = .host id event := hosting
      simp only [Machine.step, asks, Machine.stepRequest, hands.enter]
    exact ⟨[], steps ▸ .steps .stays⟩
  | @through id event _ hosting asks =>
    have steps : Machine.step host ⟨before, earlier, focus, pending⟩ =
        Machine.enter (before.beginResume target arguments) world (.hostResume id :: pending) := by
      obtain rfl : focus = .host id event := hosting
      simp only [Machine.step, asks, Machine.stepRequest]
    exact ⟨[], steps ▸ .steps .stays⟩
  | outside rests =>
    exact ⟨[.resume target arguments], .operates (.resume target arguments) world .stays rests⟩

/-- Where a resume is let in, its coroutine is as the machine has it, unless it has only just been
made. Whoever resumes it may have changed before, by using up operands or by becoming normal; but
that one is in use, and a coroutine that is let in is free, so that they are two. -/
theorem ResumeStarts.keeps {machine : Machine W} {allowances : Allowances} {arguments : List Value}
    {store : Store} {world : W} {outer : List Pending} {guard : ThreadGuard}
    (sound : machine.Sound allowances) (known : machine.store.Has target)
    (starts : ResumeStarts host machine target arguments store world outer)
    (admits : store.Admits target guard) :
    store.coroutine target = machine.store.coroutine target := by
  have apart : ∀ {id} {middle : Store} {waiting}, middle.access id = .executing →
      middle.Hands id target store waiting → target ≠ id := by
    rintro id middle waiting executing hands rfl
    cases hands with
    | waits running different => exact different rfl
    | stays => cases executing.symm.trans admits.free
  cases starts with
  | @instruction id pointer resumeAt instruction after _ waiting coding found executes hands =>
    have touches :=
      (Store.execute_effects instruction (pointer + 1) (sound.known coding)).of_ok executes
    obtain ⟨processor, became, _⟩ := touches.own
    have executing : after.access id = .executing := by
      rw [Store.access, became]
      exact sound.executing coding
    have different := apart executing hands
    obtain same | ⟨unknown, _⟩ := touches.others target different
    · exact (hands.other different).1.trans same
    · exact absurd known unknown
  | @inside id event _ _ waiting hosting asks hands =>
    obtain ⟨before, earlier, focus, pending⟩ := machine
    obtain rfl : focus = .host id event := hosting
    have driven : Driven (marks id pending) := driven_of_function sound.orderly.suits
    have executing := (sound.coroutines id).handled.access.mpr driven.ne_nil
    exact (hands.other (apart executing hands)).1
  | through hosting asks => rfl
  | outside rests => rfl

/-- The machine that an entry comes back to belongs to the run. -/
theorem Machine.Leads.returns {start machine : Machine W} {operations : List Operation}
    {outer : List Pending} {after : Store} {later : W} {outcome : Outcome}
    (leads : Machine.Leads host start operations machine)
    (returns : Machine.Returns host outer machine after later outcome) :
    Machine.Leads host start operations ⟨after, later, .settled outcome, outer⟩ := by
  induction returns with
  | back => exact leads
  | onward _ _ inductionHypothesis => exact inductionHypothesis leads.steps

/-! ### What a failed resume leaves -/

/-- A processor with nothing on its stacks and nothing to go on with. -/
structure Processor.Emptied (processor : Processor) : Prop extends Spent processor where
  values : processor.values.toList = []
  frames : processor.frames.toList = []

/-- A coroutine is dead, with empty stacks, and it will never be resumed again. -/
structure Machine.Buries (host : Host W) (machine : Machine W) (target : CoroutineId) : Prop
    extends Emptied (machine.store.processor target) where
  dead : machine.store.status target = .dead
  forever : ∀ operations last, Machine.Leads host machine operations last →
    ∀ arguments world outer, Machine.enter (last.store.beginResume target arguments) world outer =
      (⟨last.store, world, .settled (.error .coroutineDead), outer⟩ : Machine W)

/-- A resume of a coroutine in this store and this world has failed as it should: if it was not let
in it has done nothing, and otherwise it has killed the coroutine. -/
structure Machine.FailsWhole (host : Host W) (store : Store) (world : W) (target : CoroutineId)
    (machine : Machine W) : Prop where
  refused : (∀ guard, ¬ store.Admits target guard) → machine.store = store ∧ machine.world = world
  admitted : ∀ guard, store.Admits target guard → machine.Buries host target

/-- A coroutine whose resume has been closed with an error. -/
structure ClosedWith (before : CoroutineStatus) (error : ScriptError) (coroutine : Coroutine) : Prop
    extends Emptied coroutine.processor where
  status : coroutine.status = Machine.statusAfter before (.error error)
  access : coroutine.access = .free
  child : coroutine.parent ≠ none

section

variable {chunk : Chunk} {settings : Settings} {thread : ThreadId} {operations : List Operation}
  {store after : Store} {world later : W} {arguments : List Value} {outer : List Pending}
  {error : ScriptError}

/-- Whoever closes an admitted resume with an error finds a coroutine in use, which has nothing left
to start or to go on with. -/
theorem closedWith_of_returns {guard : ThreadGuard}
    (reached : Machine.Reachable host (.initial chunk settings thread) operations
      (Machine.enter (store.beginResume target arguments) world outer))
    (admits : store.Admits target guard)
    (returns : Machine.Returns host outer
      (Machine.enter (store.beginResume target arguments) world outer) after later (.error error)) :
    ClosedWith (store.status target) error (after.coroutine target) := by
  cases prepared : enterFromResume store.chunk arguments
    { store.processor target with guard := guard } with
  | mk entered processor =>
    rw [enter_beginResume admits prepared] at reached returns
    generalize store.counters.start? .resume = stopwatch at reached returns
    obtain ⟨inside, insideWorld, inner, inward, closes⟩ :=
      Machine.Returns.through returns ⟨_, _, _, []⟩ rfl
    obtain ⟨stores, _, rfl⟩ := closes.settled
    obtain ⟨start, leads⟩ := reached
    have closing : Machine.Reachable host (.initial chunk settings thread) operations
        ⟨inside, insideWorld, .settled (.error error),
          .closeResume target (store.status target) stopwatch :: outer⟩ :=
      ⟨start, leads.returns inward⟩
    have marked :
        marks target (.closeResume target (store.status target) stopwatch :: outer) ≠ [] := by
      simp [marks_cons, Pending.mark_closeResume]
    have sound := (reachable_sound (guardsAllowed host _) closing).1
    have known : inside.Has target := sound.orderly.known target marked
    have resumed := (sound.coroutines target).handled.shaped
    rw [Machine.seen, marks_cons, Pending.mark_closeResume] at resumed
    obtain ⟨coroutines, _⟩ :=
      coroutines_closeResume host known (store.status target) stopwatch (.error error) insideWorld
    have closed : after.coroutine target =
        ⟨Machine.statusAfter (store.status target) (.error error), .free,
          (inside.coroutine target).parent, { (inside.processor target).clear with
            guard := (inside.processor target).guard.leave.2 }⟩ := by
      rw [stores]
      exact (Store.coroutine_congr coroutines target).trans
        (Store.coroutine_modifyCoroutine known _)
    rw [closed]
    exact ⟨⟨⟨((sound.coroutines target).supplied.spent (.inr marked)).1, rfl⟩, rfl, rfl⟩, rfl, rfl,
      fun orphan => marked (reachable_rooted closing target resumed.1 orphan).unmarked⟩

/-- A coroutine that is dead after its resume has failed is never resumed again: its status stays,
and with this status every resume is refused. -/
theorem ClosedWith.buries
    (reached : Machine.Reachable host (.initial chunk settings thread) operations
      ⟨after, later, .settled (.error error), outer⟩)
    (closed : ClosedWith (store.status target) error (after.coroutine target))
    (uncrossed : error.isCrossThread = false) :
    Machine.Buries host ⟨after, later, .settled (.error error), outer⟩ target := by
  have dead : after.status target = .dead := by
    rw [Store.status, closed.status, statusAfter_error, uncrossed]
    rfl
  have handled := ((reachable_sound (guardsAllowed host _) reached).1.coroutines target).handled
  have unmarked := handled.unmarked_of_free closed.access
  refine ⟨closed.toEmptied, dead, fun operations last leads arguments world outer => ?_⟩
  exact enter_beginResume_refused
    (.dead (reached.dead_stays leads closed.child ⟨unmarked, dead⟩)) arguments world outer

/-- A resume that fails leaves nothing to go on with, and it is as if nothing had happened or the
coroutine is dead for good, unless the error is the refusal of a guard and the resume has been let
in. In that case the coroutine has its earlier status back, and the next resume that is let in finds
it dead. -/
theorem failed_resume_whole_iff {machine : Machine W}
    (reached : Machine.Reachable host (.initial chunk settings thread) operations machine)
    (starts : ResumeStarts host machine target arguments store world outer)
    (returns : Machine.Returns host outer
      (Machine.enter (store.beginResume target arguments) world outer) after later (.error error)) :
    (Machine.FailsWhole host store world target ⟨after, later, .settled (.error error), outer⟩ ↔
      (error.isCrossThread = true → ∀ guard, ¬ store.Admits target guard)) ∧
    ∀ guard, store.Admits target guard → Emptied (after.processor target) ∧
      (error.isCrossThread = true → after.status target = store.status target ∧
        ∀ arguments, (enterFromResume after.chunk arguments (after.processor target)).1 =
          .error .coroutineDead) := by
  obtain ⟨further, leads⟩ := starts.leads
  obtain ⟨start, enters⟩ := reached.leads leads
  have ended : Machine.Reachable host (.initial chunk settings thread) (further ++ operations)
      ⟨after, later, .settled (.error error), outer⟩ := ⟨start, enters.returns returns⟩
  have closed := fun guard (admits : store.Admits target guard) =>
    closedWith_of_returns ⟨start, enters⟩ admits returns
  have same : (∀ guard, ¬ store.Admits target guard) → after = store ∧ later = world := by
    intro turned
    obtain ⟨refusal, refuses⟩ | ⟨guard, admits⟩ := refuses_or_admits store target
    · rw [enter_beginResume_refused refuses] at returns
      exact ⟨returns.settled.1, returns.settled.2.1⟩
    · exact absurd admits (turned guard)
  refine ⟨⟨fun whole crossed guard admits => ?_, fun uncrossed => ⟨same, fun guard admits => ?_⟩⟩,
    fun guard admits => ⟨(closed guard admits).toEmptied, fun crossed => ⟨?_, fun arguments => ?_⟩⟩⟩
  · have dead : after.status target = .dead := (whole.admitted guard admits).dead
    rw [Store.status, (closed guard admits).status, statusAfter_error, if_pos crossed] at dead
    have resumable := admits.resumable
    rw [dead] at resumable
    cases resumable
  · refine (closed guard admits).buries ended ?_
    exact Bool.eq_false_iff.mpr fun crossed => uncrossed crossed guard admits
  · rw [Store.status, (closed guard admits).status, statusAfter_error, if_pos crossed]
  · have empty := (closed guard admits).toSpent
    simp only [enterFromResume, Store.processor, empty.savedPointer, empty.entry]

end

/-! ### A refusal that comes up from inside -/

/-- A host whose functions fail with the refusal of a guard. -/
def Host.refuses : Host Unit where
  respond := fun _ _ _ world => (world, .finish (.error (.crossThreadAccess 0 1)))
  executionEnded := fun _ _ _ world => (world, none)

/-- The script with a coroutine of this function: the first one calls a function of the host, the
second one raises an error. -/
def callbackCoroutine (function : Nat) : Machine Unit :=
  Machine.enter
    ((Operation.create (.closure ⟨function, ⟨0, []⟩⟩)).begin callbackMachine.store) () []

/-- The script with the coroutine is one that a run leads to. -/
theorem reachable_callbackCoroutine (function : Nat) :
    Machine.Reachable Host.refuses (.sample callbackChunk)
      [.create (.closure ⟨function, ⟨0, []⟩⟩), .edit callbackEdit] (callbackCoroutine function) :=
  ⟨(), .operates _ () (.operates (.edit callbackEdit) () .stays rfl) rfl⟩

/-- The coroutine that raises an error dies of it. Its resume has failed with an error that is no
refusal of a guard. -/
theorem raising_resume_whole :
    let store := (callbackCoroutine 1).store
    ∃ after later, Machine.Returns Host.refuses []
        (Machine.enter (store.beginResume 1 []) () []) after later (.error (.runtime "no")) ∧
      Machine.FailsWhole Host.refuses store () 1
        ⟨after, later, .settled (.error (.runtime "no")), []⟩ := by
  intro store
  have fails : ((Machine.enter (store.beginResume 1 []) () []).run .refuses 3).failure? =
      some (.runtime "no") := by
    decide +kernel
  have returns := returns_of_failure [] _ _ fails
  rw [← enter_under (store.beginResume 1 []) () []] at returns
  have whole :=
    (failed_resume_whole_iff (reachable_callbackCoroutine 1) (.outside (by rfl) ()) returns).1
  exact ⟨_, _, returns, whole.mpr fun crossed => by cases crossed⟩

/-- The coroutine whose host function fails with the refusal of a guard is as if it had not started,
but its function has been used up. -/
theorem refused_inside_not_whole :
    let store := (callbackCoroutine 0).store
    ∃ after later, Machine.Returns Host.refuses []
        (Machine.enter (store.beginResume 1 []) () []) after later
        (.error (.crossThreadAccess 0 1)) ∧
      after.status 1 = .notStarted ∧ Spent (after.processor 1) ∧
      ¬ Machine.FailsWhole Host.refuses store () 1
        ⟨after, later, .settled (.error (.crossThreadAccess 0 1)), []⟩ := by
  intro store
  have fails : ((Machine.enter (store.beginResume 1 []) () []).run .refuses 5).failure? =
      some (.crossThreadAccess 0 1) := by
    decide +kernel
  have returns := returns_of_failure [] _ _ fails
  rw [← enter_under (store.beginResume 1 []) () []] at returns
  have status : ((Machine.enter (store.beginResume 1 []) () []).run .refuses 5).store.status 1 =
      .notStarted := by
    decide +kernel
  have entry : (((Machine.enter (store.beginResume 1 []) () []).run .refuses 5).store.processor
      1).entry = none := by
    decide +kernel
  have savedPointer :
      (((Machine.enter (store.beginResume 1 []) () []).run .refuses 5).store.processor
      1).savedPointer = none := by
    decide +kernel
  have admits : (callbackCoroutine 0).store.Admits 1 ⟨some 0, 1⟩ :=
    ⟨by decide +kernel, by decide +kernel, by rfl⟩
  generalize Machine.run Host.refuses 5 _ = ended at returns status entry savedPointer
  refine ⟨ended.store, ended.world, returns, status, ⟨entry, savedPointer⟩, fun whole => ?_⟩
  cases (whole.admitted _ admits).dead.symm.trans status

end CoroutineVM
