import CoroutineVM.Proofs.Machine.Statuses

/-!
# Handles agree with processors

The status of a coroutine is kept on its handle, and what it goes on with in its processor. They are
changed in different functions at different times. While guards are spared and no function of the
host makes up a refusal by a guard, they agree at every moment of a run: the status tells what the
processor holds, and whether somebody has it.
-/

namespace CoroutineVM

open Processor Relation

variable {W : Type} {rules : Rules} {id : CoroutineId}

/-! ### What the status promises -/

/-- What a coroutine on which nobody waits has to go on with is what its status promises, and no
refusal by a guard is about to end a resume. -/
structure Poised (seen : Seen) : Prop where
  surfaced : ∀ error, seen.standing = .ending (.error error) → error.isCrossThread = false
  notStarted : seen.marks = [] → seen.coroutine.status = .notStarted →
    seen.coroutine.processor.entry ≠ none
  suspended : seen.marks = [] → seen.coroutine.status = .suspended →
    seen.coroutine.processor.savedPointer ≠ none
  dead : seen.marks = [] → seen.coroutine.status = .dead →
    seen.coroutine.processor.entry = none ∧ seen.coroutine.processor.savedPointer = none

/-- A coroutine on which somebody waits promises nothing, because its status will be set when that
one is told. -/
theorem Poised.ofMarked {seen : Seen} (marked : seen.marks ≠ [])
    (surfaced : ∀ error, seen.standing = .ending (.error error) → error.isCrossThread = false) :
    Poised seen where
  surfaced := surfaced
  notStarted := fun unmarked => absurd unmarked marked
  suspended := fun unmarked => absurd unmarked marked
  dead := fun unmarked => absurd unmarked marked

/-- Neither does the script's own coroutine, which has a status of its own. -/
theorem Poised.ofMain {seen : Seen} (main : seen.coroutine.status = .main)
    (surfaced : ∀ error, seen.standing = .ending (.error error) → error.isCrossThread = false) :
    Poised seen where
  surfaced := surfaced
  notStarted := fun _ status => by cases main.symm.trans status
  suspended := fun _ status => by cases main.symm.trans status
  dead := fun _ status => by cases main.symm.trans status

/-- After the preparation of an entry, what comes up is what the preparation has failed with. -/
theorem surfaced_entered {entered : Except ScriptError Nat}
    (uncrossed : ∀ error, entered = .error error → error.isCrossThread = false)
    (error : ScriptError) (ending : Standing.entered entered = .ending (.error error)) :
    error.isCrossThread = false := by
  cases entered with
  | ok pointer => cases ending
  | error raised =>
    cases ending
    exact uncrossed error rfl

/-- An error that is about to end a call or a resume comes from an instruction or was handed on, and
the rules say which errors these can be. -/
theorem Inner.surfaced {before after : Seen} (move : Inner rules before after)
    (plain : ∀ error, rules.errors error → error.isCrossThread = false)
    (surfaced : ∀ error, before.standing = .ending (.error error) → error.isCrossThread = false) :
    ∀ error, after.standing = .ending (.error error) → error.isCrossThread = false := by
  intro error ending
  cases move with
  | executes driven effect => cases effect <;> cases ending
  | falters driven effect allowed =>
    cases ending
    exact plain error allowed
  | works driven keeps unfinished reaches =>
    obtain unfinished | ⟨raised, allowed, failed⟩ := reaches
    · dsimp only at ending
      rw [ending] at unfinished
      exact unfinished.elim
    · cases failed.symm.trans ending
      exact plain error allowed
  | calls used unfinished admitted prepared =>
    exact surfaced_entered (fun raised failed =>
      raised.uncrossed_of_own (enterFromHost_own prepared failed)) error ending
  | guarded allowed operated => exact surfaced error ending
  | leaves unfinished => cases ending
  | closesCall => cases ending
  | waits driven unfinished running => cases ending
  | wakes => cases ending

/-- Every move keeps what a status promises. The end of a resume is the move that makes promises:
after a return nothing is left to go on with, after a yield there is a saved place, and what was
used up at the beginning stays so. -/
theorem Move.poised {before after : Seen} (move : Move rules id before after)
    (plain : ∀ error, rules.errors error → error.isCrossThread = false)
    (handled : Handled id before) (supplied : Supplied rules id before) (poised : Poised before) :
    Poised after := by
  cases move with
  | inner move =>
    have surfaced := move.surfaced plain poised.surfaced
    by_cases unmarked : after.marks = []
    · obtain ⟨idle, guard, same⟩ := move.rests handled unmarked
      refine ⟨surfaced, fun _ => ?_, fun _ => ?_, fun _ => ?_⟩
      · rw [same]
        exact poised.notStarted idle
      · rw [same]
        exact poised.suspended idle
      · rw [same]
        exact poised.dead idle
    · exact .ofMarked unmarked surfaced
  | resumes unfinished resumable free admitted prepared =>
    exact .ofMarked (by simp) (surfaced_entered (resumeEntry_of_prepared prepared).uncrossed)
  | @closesResume coroutine status marks outcome =>
    have empty := (supplied.spent (.inr (by simp))).1
    have calm : ∀ error, Standing.apart = .ending (.error error) → error.isCrossThread = false :=
      fun _ ending => by cases ending
    match outcome with
    | .ok (.yielded value resumeAt) =>
      exact ⟨calm, fun _ status => (by cases status), fun _ _ saved => (by cases saved),
        fun _ status => (by cases status)⟩
    | .ok (.returned value) =>
      exact ⟨calm, fun _ status => (by cases status), fun _ status => (by cases status),
        fun _ _ => ⟨empty, rfl⟩⟩
    | .error error =>
      have dead : Machine.statusAfter status (.error error) = .dead := by
        rw [statusAfter_error, poised.surfaced error rfl]
        rfl
      refine ⟨calm, fun _ status => ?_, fun _ status => ?_, fun _ _ => ⟨empty, rfl⟩⟩
      · cases dead.symm.trans status
      · cases dead.symm.trans status
  | borrows isMain unfinished free => exact .ofMarked (by simp) fun _ ending => by cases ending
  | pushes isMain grows => exact .ofMarked (by simp) fun _ ending => by cases ending
  | releases => exact .ofMain (handled.main handled.shaped.1) fun _ ending => by cases ending
  | callsTop allowed isMain unfinished admitted prepared =>
    exact .ofMarked (by simp) (surfaced_entered fun raised failed =>
      raised.uncrossed_of_own (enterFromHost_own prepared failed))
  | holds before after =>
    exact ⟨poised.surfaced, poised.notStarted, poised.suspended, poised.dead⟩
  | born other newborn =>
    obtain ⟨parent, closure, rfl⟩ := newborn
    refine ⟨fun _ ending => (by cases ending), fun _ _ entry => (by cases entry),
      fun _ status => ?_, fun _ status => ?_⟩
    · cases status
    · cases status

/-- Any number of moves keeps it; that the coroutine is sound is kept along with it. -/
theorem Moves.poised {before after : Seen} (moves : Moves rules id before after)
    (plain : ∀ error, rules.errors error → error.isCrossThread = false)
    (sound : Sound rules id before) (poised : Poised before) : Poised after :=
  Moves.keeps (fun move sound => move.poised plain sound.handled sound.supplied) moves sound poised

/-! ### Machines in which no refusal by a guard comes up -/

/-- Guards are spared, and no error that comes up is the refusal of one. -/
def Allowances.plain : Allowances := ⟨False, True, fun error => error.isCrossThread = false⟩

/-- A sound machine at which no refusal by a guard comes up, and each of whose coroutines has to go
on with what its status promises. -/
structure Machine.Plain (machine : Machine W) : Prop where
  sound : machine.Sound .plain
  uncrossed : machine.focus.Uncrossed
  poised : ∀ id, Poised (machine.seen id)

/-- What a step or the beginning of an operation is like where no refusal by a guard comes up. -/
structure Proceeds (before after : Machine W) : Prop extends Regular before.store after where
  lasts : Store.Lasts before.store after.store
  plain : after.Plain

/-- Where a machine advances and statuses follow the diagram, it stays plain. -/
theorem Machine.Plain.proceeds {before after : Machine W} (plain : before.Plain)
    (advances : Advances (before.store.rules .plain) before after)
    (regular : Regular before.store after) : Proceeds before after where
  toRegular := regular
  lasts := advances.lasts
  plain := ⟨advances.sound plain.sound, regular.uncrossed, fun id =>
    (advances.moves id).poised (fun _ allowed => allowed) (plain.sound.coroutines id)
      (plain.poised id)⟩

/-- One step, if the request that it carries out operates no guard and makes up no refusal. Sound
moves keep it sound, and no other way leads to a refusal when the script runs on one thread. -/
theorem Machine.Plain.step {host : Host W} {machine : Machine W} (plain : machine.Plain)
    (spares : ∀ request, machine.request? host = some request → request.touchesGuard = false)
    (uncrossed : ∀ request error, machine.request? host = some request →
      request.error? = some error → error.isCrossThread = false) :
    Proceeds machine (machine.step host) := by
  refine plain.proceeds (plain.sound.step host ?_ ?_ ?_)
    (regular_step plain.sound spares uncrossed plain.uncrossed)
  · exact fun error own => error.uncrossed_of_own own
  · intro error surfaced
    have focus := plain.uncrossed
    rw [surfaced] at focus
    exact focus
  · intro request wants touches
    cases touches.symm.trans (spares request wants)

/-- The beginning of an operation that operates no guard. -/
theorem Machine.Plain.begin {machine : Machine W} (plain : machine.Plain)
    (rests : machine.atRest = true) {operation : Operation}
    (spares : ¬ operation.touchesGuard = true) (world : W) :
    Proceeds machine (Machine.enter (operation.begin machine.store) world []) :=
  plain.proceeds (plain.sound.begin rests operation spares (fun _ => trivial) world)
    (regular_begin plain.sound operation world)

/-- A new script has one coroutine, with a status that promises nothing. -/
theorem plain_new (chunk : Chunk) (settings : Settings) (thread : ThreadId) (world : W) :
    (Machine.new (.initial chunk settings thread) world).Plain := by
  refine ⟨sound_initial chunk settings thread world _, trivial, fun id => ?_⟩
  by_cases isMain : id = Store.main
  · subst isMain
    exact .ofMain rfl fun _ ending => by cases ending
  · have unknown : ¬ (Store.initial chunk settings thread).Has id := by
      rw [Store.Has]
      simpa [Store.initial, Store.main] using isMain
    have gone :
        (Machine.new (.initial chunk settings thread) world).seen id = ⟨.gone, [], .apart⟩ := by
      rw [Machine.new, Machine.seen, Store.coroutine_gone unknown]
      rfl
    rw [gone]
    refine ⟨fun _ ending => (by cases ending), fun _ status => ?_, fun _ status => ?_,
      fun _ _ => ⟨rfl, rfl⟩⟩
    · cases status
    · cases status

/-! ### Runs in which no refusal by a guard comes up -/

/-- What the host does in a run on one thread: nobody operates a guard by hand, neither a function
of the host nor the host between two operations, and no function makes up a refusal by a guard. -/
structure Stage.Plain (host : Host W) (trace : List (Stage W)) : Prop where
  spares : ∀ stage ∈ trace, stage.touchesGuard host = false
  relays : Stage.Relays (fun error => error.isCrossThread = true) host trace

/-- No function of the host has been told of a refusal by a guard so far. -/
def Stage.Untold (trace : List (Stage W)) : Prop :=
  ∀ stage ∈ trace, ∀ error, stage.told? = some error → error.isCrossThread = false

section

variable {host : Host W} {trace : List (Stage W)}

/-- What is asked of a trace is asked of each part of it. -/
theorem Stage.Plain.earlier {stage : Stage W} (plain : Stage.Plain host (stage :: trace)) :
    Stage.Plain host trace :=
  ⟨fun other member => plain.spares other (.tail _ member), plain.relays.earlier⟩

/-- The request that is carried out at the last stage of a plain trace operates no guard. -/
theorem Stage.Plain.request {machine : Machine W}
    (plain : Stage.Plain host (.steps machine :: trace)) (request : Request)
    (wants : machine.request? host = some request) :
    request.touchesGuard = false := by
  have spares := plain.spares _ List.mem_cons_self
  simpa [Stage.touchesGuard, wants] using spares

/-- A function of the host does not fail with a refusal by a guard if none has been told of one. -/
theorem Stage.Plain.error {machine : Machine W} (plain : Stage.Plain host (.steps machine :: trace))
    (untold : Stage.Untold (.steps machine :: trace)) (request : Request) (error : ScriptError)
    (wants : machine.request? host = some request) (fails : request.error? = some error) :
    error.isCrossThread = false := by
  have failed : (Stage.steps machine).error? host = some error := by
    simp [Stage.error?, wants, fails]
  exact Bool.eq_false_iff.mpr
    (plain.relays.error (fun other member raised told => by simp [untold other member raised told])
      failed)

/-- What a host function is told at a machine where no refusal has come up is none. -/
theorem Stage.Untold.steps {machine : Machine W} (untold : Stage.Untold trace)
    (uncrossed : machine.focus.Uncrossed) : Stage.Untold (.steps machine :: trace) := by
  refine List.forall_mem_cons.mpr ⟨fun error told => ?_, untold⟩
  obtain ⟨store, world, focus, pending⟩ := machine
  cases focus with
  | host id event => exact uncrossed error told
  | code id pointer => cases told
  | settled outcome => cases told

end

/-- Whatever a run goes on with, no refusal comes up later either, and a coroutine that is dead
stays so. -/
structure Machine.Endures (before after : Machine W) : Prop where
  plain : after.Plain
  lasts : Store.Lasts before.store after.store
  dead : ∀ id, before.store.Has id → before.store.status id = .dead → after.store.status id = .dead

/-- A coroutine that is dead stays dead in one more step, since no edge leads away from there. -/
theorem Machine.Endures.trans_proceeds {first second third : Machine W}
    (endures : first.Endures second) (proceeds : Proceeds second third) : first.Endures third where
  plain := proceeds.plain
  lasts := endures.lasts.trans proceeds.lasts
  dead := fun id known dead => by
    have follows := proceeds.statuses id (endures.lasts.has known)
    rw [endures.dead id known dead] at follows
    exact follows.dead

/-- A plain trace can be gone on with: what came before matters only in that no function of the host
has been told of a refusal then. The induction is on the stages, and each of them needs to know of
all earlier ones that nobody was told of a refusal, since a function may fail with what another was
told. -/
theorem Machine.Traces.endures {host : Host W} {start machine : Machine W}
    {older trace : List (Stage W)} (traces : Machine.Traces host start trace machine)
    (untold : Stage.Untold older) (allowed : Stage.Plain host (trace ++ older))
    (plain : start.Plain) : start.Endures machine ∧ Stage.Untold (trace ++ older) := by
  induction traces with
  | stays => exact ⟨⟨plain, .refl _, fun _ _ dead => dead⟩, untold⟩
  | begins operation world traces rests inductionHypothesis =>
    obtain ⟨endures, before⟩ := inductionHypothesis allowed.earlier
    have spares : operation.touchesGuard = false := allowed.spares _ List.mem_cons_self
    refine ⟨endures.trans_proceeds (endures.plain.begin rests (by simp [spares]) world), ?_⟩
    exact List.forall_mem_cons.mpr ⟨fun _ told => (by cases told), before⟩
  | steps traces inductionHypothesis =>
    obtain ⟨endures, before⟩ := inductionHypothesis allowed.earlier
    have now := before.steps endures.plain.uncrossed
    exact ⟨endures.trans_proceeds (endures.plain.step allowed.request (allowed.error now)), now⟩

/-! ### What the status tells -/

/-- A processor that nobody is in. -/
structure Processor.Left (processor : Processor) : Prop where
  nesting : processor.guard.nesting = 0
  mayYield : processor.mayYield = true

/-- A processor with nothing on its stacks. -/
structure Processor.Blank (processor : Processor) : Prop extends Left processor where
  values : processor.values.toList = []
  frames : processor.frames.toList = []

/-- Nothing is left to start or to go on with. -/
structure Processor.Spent (processor : Processor) : Prop where
  entry : processor.entry = none
  savedPointer : processor.savedPointer = none

/-- The processor of a coroutine that has not started. -/
structure Processor.Fresh (processor : Processor) : Prop extends Blank processor where
  entry : ∃ closure, processor.entry = some closure
  savedPointer : processor.savedPointer = none

/-- The processor of a coroutine that goes on later. The host has entered its bottom frame and no
other. -/
structure Processor.Paused (processor : Processor) : Prop extends Left processor where
  entry : processor.entry = none
  savedPointer : ∃ pointer, processor.savedPointer = some pointer
  frames : ∃ bottom above, processor.frames.toList = bottom :: above ∧ bottom.returnPoint = .host ∧
    ∀ frame ∈ above, frame.returnPoint ≠ .host

/-- The coroutine is in a resume that is still to be closed. -/
structure Machine.Resuming (machine : Machine W) (id : CoroutineId) : Prop
    extends Spent (machine.store.processor id) where
  access : machine.store.access id = .executing
  resumed : ∃ before stopwatch, .closeResume id before stopwatch ∈ machine.pending
  nesting : 1 ≤ (machine.store.processor id).guard.nesting

/-- What the status of a coroutine tells about its processor. -/
structure Machine.Agrees (machine : Machine W) (id : CoroutineId) : Prop where
  notStarted : machine.store.status id = .notStarted → Fresh (machine.store.processor id)
  suspended : machine.store.status id = .suspended → Paused (machine.store.processor id)
  dead : machine.store.status id = .dead →
    Blank (machine.store.processor id) ∧ Spent (machine.store.processor id)
  active : machine.store.status id = .running ∨ machine.store.status id = .normal →
    machine.Resuming id

/-- Whoever marks a coroutine as resumed waits to close that resume. -/
theorem closeResume_of_mark {pending : List Pending} {before : CoroutineStatus}
    (member : .resume before ∈ marks id pending) :
    ∃ stopwatch, .closeResume id before stopwatch ∈ pending := by
  obtain ⟨waiting, waits, marked⟩ := List.mem_filterMap.mp member
  obtain ⟨stopwatch, rfl⟩ := Pending.of_mark marked
  exact ⟨stopwatch, waits⟩

/-- The frames of a level from the bottom up: the host has entered the lowest one and none above
it. -/
theorem Level.bottomUp {processor : Processor} (level : Level processor.activeFrames) :
    ∃ bottom above, processor.frames.toList = bottom :: above ∧ bottom.returnPoint = .host ∧
      ∀ frame ∈ above, frame.returnPoint ≠ .host := by
  obtain ⟨inner, bottom, split, entered, others⟩ := level.outermost
  refine ⟨bottom, inner.reverse, ?_, entered,
    fun frame member => others frame (by simpa using member)⟩
  have turned := congrArg List.reverse split
  rwa [activeFrames, List.reverse_reverse, List.reverse_append] at turned

/-- Nobody is in the processor of a coroutine on which nobody waits: its guard is as deep as there
are marks, and the permission to yield is back. -/
theorem Machine.Plain.left {machine : Machine W} (plain : machine.Plain)
    (unmarked : marks id machine.pending = []) : Left (machine.store.processor id) := by
  have supplied := (plain.sound.coroutines id).supplied
  have flags := supplied.flags
  have guard := supplied.guard fun spared => spared
  rw [Machine.seen, unmarked] at flags guard
  exact ⟨congrArg ThreadGuard.nesting guard, flags⟩

/-- The stacks of a coroutine that rests and has not yielded are empty. -/
theorem Machine.Plain.blank {machine : Machine W} (plain : machine.Plain) (other : id ≠ Store.main)
    (unmarked : marks id machine.pending = [])
    (unsaved : (machine.store.processor id).savedPointer = none) :
    Blank (machine.store.processor id) := by
  obtain ⟨values, frames⟩ := (plain.sound.coroutines id).tiered.empty other unmarked unsaved
  exact ⟨plain.left unmarked, values, List.reverse_eq_nil_iff.mp frames⟩

/-- A coroutine on which somebody waits is in a resume, whose end is still among those who wait. -/
theorem Machine.Plain.resuming {machine : Machine W} (plain : machine.Plain)
    (other : id ≠ Store.main) (marked : marks id machine.pending ≠ []) : machine.Resuming id := by
  have coroutine := plain.sound.coroutines id
  obtain ⟨entry, saved⟩ := coroutine.supplied.spent (.inr marked)
  obtain ⟨before, member⟩ := coroutine.handled.shaped.resumed other marked
  have guard := coroutine.supplied.guard fun spared => spared
  have nesting : (machine.store.processor id).guard.nesting = depth (marks id machine.pending) := by
    exact (congrArg ThreadGuard.nesting guard).trans (nested_free_nesting _ _)
  exact ⟨⟨entry, saved⟩, coroutine.handled.access.mpr marked, ⟨before, closeResume_of_mark member⟩,
    nesting ▸ depth_pos member⟩

/-- What a status tells is put together: the promises give what there is to go on with, and the
marks, which the status tells, give the rest. -/
theorem Machine.Plain.agrees {machine : Machine W} (plain : machine.Plain) (id : CoroutineId) :
    machine.Agrees id := by
  have coroutine := plain.sound.coroutines id
  have poised := plain.poised id
  by_cases isMain : id = Store.main
  · have main : machine.store.status id = .main := coroutine.handled.main isMain
    refine ⟨?_, ?_, ?_, ?_⟩ <;> simp [main]
  · have agrees : CoroutineVM.Agrees (machine.store.status id) (marks id machine.pending) :=
      coroutine.handled.status isMain
    by_cases unmarked : marks id machine.pending = []
    · refine ⟨fun status => ?_, fun status => ?_, fun status => ?_, fun active => ?_⟩
      · have entry := poised.notStarted unmarked status
        have saved := coroutine.supplied.consumed.resolve_right entry
        exact ⟨plain.blank isMain unmarked saved, Option.ne_none_iff_exists'.mp entry, saved⟩
      · have saved := poised.suspended unmarked status
        have entry := coroutine.supplied.consumed.resolve_left saved
        exact ⟨plain.left unmarked, entry, Option.ne_none_iff_exists'.mp saved,
          (coroutine.tiered.paused isMain unmarked saved).bottomUp⟩
      · obtain ⟨entry, saved⟩ := poised.dead unmarked status
        exact ⟨plain.blank isMain unmarked saved, entry, saved⟩
      · rw [unmarked] at agrees
        have resting := agrees.resting
        obtain running | normal := active
        · simp [running] at resting
        · simp [normal] at resting
    · have active := agrees.active unmarked
      refine ⟨fun status => ?_, fun status => ?_, fun status => ?_,
        fun _ => plain.resuming isMain unmarked⟩
      all_goals simp [status] at active

/-- A resume that finds something to start or to go on with does not take its coroutine for a dead
one. -/
theorem Processor.ResumeEntry.alive {chunk : Chunk} {arguments : List Value}
    {before after : Processor} {entered : Except ScriptError Nat}
    (entry : ResumeEntry chunk arguments before entered after)
    (something : before.entry ≠ none ∨ before.savedPointer ≠ none) :
    entered ≠ .error .coroutineDead := by
  have foreign : ∀ {error : ScriptError}, error.isOwn = true → error ≠ .coroutineDead := by
    rintro error own rfl
    cases own
  intro failed
  cases entry with
  | continues saved grows values => cases failed
  | overflows saved grows own =>
    cases failed
    exact foreign own rfl
  | starts fresh closure prepared => exact foreign (enterFromHost_own prepared failed) rfl
  | spent fresh closure =>
    obtain present | present := something
    · exact present closure
    · exact present fresh

/-- A coroutine that can be resumed has something to start or to go on with. So the error that there
is nothing is never raised. -/
theorem Machine.Agrees.something {machine : Machine W} (agrees : machine.Agrees id)
    (resumable : (machine.store.status id).isResumable = true) :
    (machine.store.processor id).entry ≠ none ∨
      (machine.store.processor id).savedPointer ≠ none := by
  cases status : machine.store.status id with
  | notStarted =>
    obtain ⟨closure, entry⟩ := (agrees.notStarted status).entry
    exact .inl (by simp [entry])
  | suspended =>
    obtain ⟨pointer, saved⟩ := (agrees.suspended status).savedPointer
    exact .inr (by simp [saved])
  | _ =>
    rw [status] at resumable
    cases resumable

/-- What the handles of a script can be relied on for, at one moment of a run and from there on. -/
structure Machine.Accords (host : Host W) (trace : List (Stage W)) (machine : Machine W) :
    Prop where
  agrees : ∀ id, machine.Agrees id
  main : machine.store.status Store.main = .main
  /-- The next step changes statuses along the edges of the diagram only, whatever the host
  wants. -/
  steps : ∀ id, machine.store.Has id →
    (machine.store.status id).Follows ((machine.step host).store.status id)
  /-- So does the beginning of an operation. -/
  begins : ∀ (operation : Operation) (world : W), machine.atRest = true →
    ∀ id, machine.store.Has id →
    (machine.store.status id).Follows
      ((Machine.enter (operation.begin machine.store) world []).store.status id)
  /-- A coroutine that is dead stays so, whatever the run goes on with. -/
  dead : ∀ later after, Machine.Traces host machine later after →
    Stage.Plain host (later ++ trace) →
    ∀ id, machine.store.Has id → machine.store.status id = .dead → after.store.status id = .dead
  /-- A resume that is let in never finds that its coroutine has nothing to go on with. -/
  alive : ∀ id arguments guard, machine.store.Admits id guard →
    (enterFromResume machine.store.chunk arguments
      { machine.store.processor id with guard := guard }).1 ≠ .error .coroutineDead

/-- The status of a coroutine tells what its processor holds, at every moment of a run on one
thread. All that is asked is about the stages of this run. Nobody operates a guard by hand in it:
the host leaves guards alone between two operations too, and not only in its functions. And a
function of the host fails with the refusal of a guard only after one has been told of such a
refusal, so that it may hand on every error that it gets. -/
theorem statuses_tell_processors {host : Host W} {chunk : Chunk} {settings : Settings}
    {thread : ThreadId} {world : W} {trace : List (Stage W)} {machine : Machine W}
    (plain : Stage.Plain host trace)
    (traces : Machine.Traces host (.new (.initial chunk settings thread) world) trace machine) :
    machine.Accords host trace := by
  have nothing : Stage.Untold ([] : List (Stage W)) := fun _ member => by cases member
  obtain ⟨endures, untold⟩ := traces.endures nothing (by rwa [List.append_nil])
    (plain_new chunk settings thread world)
  rw [List.append_nil] at untold
  have now := endures.plain
  constructor
  case agrees => exact now.agrees
  case main => exact (now.sound.coroutines Store.main).handled.main rfl
  case steps => exact follows_step host now.sound now.uncrossed
  case begins => exact fun operation later _ => (regular_begin now.sound operation later).statuses
  case dead =>
    intro later after following allowed id
    exact (following.endures untold allowed now).1.dead id
  case alive =>
    intro id arguments guard admits
    exact (resumeEntry_of_prepared rfl).alive ((now.agrees id).something admits.resumable)

/-! ### A coroutine that has yielded -/

/-- A main body that resumes a coroutine, which yields. -/
def yieldingChunk : Chunk where
  functions := #[⟨"main", 0, 0, false⟩, ⟨"yields", 4, 0, false⟩]
  code :=
    #[.makeClosure 1 [], .createCoroutine, .resumeCoroutine 0, .ret 1, .literal .nil, .yield 1]

/-- A host whose functions return nil at once does nothing with guards but in its operations. -/
theorem silent_plain {trace : List (Stage Unit)}
    (spares : ∀ operation ∈ trace.filterMap Stage.operation?, operation.touchesGuard = false) :
    Stage.Plain Host.silent trace := by
  constructor
  case spares =>
    intro stage member
    cases stage with
    | begins before operation =>
      exact spares operation (List.mem_filterMap.mpr ⟨_, member, rfl⟩)
    | steps before =>
      obtain ⟨store, world, focus, pending⟩ := before
      cases focus <;> rfl
  case relays =>
    intro later stage earlier _ error _ fails
    cases stage with
    | begins before operation => cases fails
    | steps before => cases (Stage.silent_steps before).2.2.symm.trans fails

/-- After its yield the coroutine is suspended, and its status tells so: it has a place to go on at,
and no entry is under way in it. -/
theorem yielded_status_tells :
    let machine := Machine.sample .silent () yieldingChunk (.call .mainBody []) 6
    machine.store.status 1 = .suspended ∧
      ∃ trace, Machine.Traces Host.silent (.new (.sample yieldingChunk) ()) trace machine ∧
        Stage.Plain Host.silent trace ∧ machine.Accords .silent trace := by
  have suspended : (Machine.sample .silent () yieldingChunk (.call .mainBody []) 6).store.status 1 =
      .suspended := by
    cbv
  obtain ⟨world, leads⟩ := reachable_sample Host.silent () yieldingChunk (.call .mainBody []) 6
  obtain ⟨trace, traces, operations⟩ := Machine.Traces.exists_of_leads leads
  have plain : Stage.Plain Host.silent trace := by
    refine silent_plain fun operation member => ?_
    rw [operations] at member
    obtain rfl := List.mem_singleton.mp member
    rfl
  exact ⟨suspended, trace, traces, plain, statuses_tell_processors plain traces⟩

end CoroutineVM
