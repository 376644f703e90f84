import Mathlib.Data.List.Forall2
import CoroutineVM.Session
import CoroutineVM.Proofs.Room.Stores

/-!
# Machines with more room

Two machines at the same place, in stores of which the second has no less room, stay so as long as
no stack of the first one is full. The host sees them through its functions and its debuggers, and
is taken to answer both in the same way: to look at everything but the settings and what is told by
them alone, which is how high stacks may grow and, if only one of the machines counts, what has been
counted.
-/

namespace CoroutineVM

variable {W : Type} {host : Host W} {small large : Settings}

/-- Whether the machine stands at the error of a full stack. -/
def Focus.overflows : Focus → Bool
  | .settled (.error error) => error.isOverflow
  | .settled (.ok _) | .code _ _ | .host _ _ => false

/-- What the host answers does not depend on the settings. -/
structure Host.Blind (host : Host W) (small large : Settings) : Prop where
  respond : ∀ {first second : Store}, Store.Wider small large first second → ∀ id event world,
    host.respond id event second world = host.respond id event first world
  executionEnded : ∀ {first second : Store}, Store.Wider small large first second →
    ∀ debugger id world,
      host.executionEnded debugger id second world = host.executionEnded debugger id first world

/-- The same wait for the same, with the same stopwatches if both are counted. -/
inductive Pending.Alike (counted : Prop) : Pending → Pending → Prop where
  | same (waiting : Pending) : Alike counted waiting waiting
  | closeCall (id : CoroutineId) (valueHeight frameHeight : Nat) (mayYield : Bool)
      {stopwatch other : Option Stopwatch} (timed : counted → other = stopwatch) :
      Alike counted (.closeCall id valueHeight frameHeight mayYield stopwatch)
        (.closeCall id valueHeight frameHeight mayYield other)
  | closeResume (target : CoroutineId) (before : CoroutineStatus)
      {stopwatch other : Option Stopwatch}
      (timed : counted → other = stopwatch) :
      Alike counted (.closeResume target before stopwatch) (.closeResume target before other)

/-- Those who wait in two machines. -/
abbrev Waiting (small large : Settings) : List Pending → List Pending → Prop :=
  List.Forall₂ (Pending.Alike (large.counting = small.counting))

/-! ### Entries -/

/-- The second entry leads to the same as the first one, with no less room. -/
structure Turn.Wider (small large : Settings) (first second : Turn) : Prop where
  store : Store.Wider small large first.store second.store
  focus : second.focus = first.focus
  waiting : Waiting small large first.waiting second.waiting

/-- A stack of the first store is full, or the second entry leads to the same. -/
def Turn.Widens (small large : Settings) (first second : Turn) : Prop :=
  first.focus.overflows = true ∨ Turn.Wider small large first second

/-- The same one is told the outcome in both. -/
theorem Turn.Widens.andThen {first second : Turn} (widens : Turn.Widens small large first second)
    (waiting : Pending) :
    Turn.Widens small large (first.andThen waiting) (second.andThen waiting) := by
  obtain overflows | wider := widens
  · exact .inl overflows
  · exact .inr { wider with waiting := List.rel_append wider.waiting (.cons (.same waiting) .nil) }

namespace Store

variable {first second : Store}

/-- An outcome that is the same in both is the same place in both. -/
theorem Wider.settles (wider : Wider small large first second) (outcome : Outcome) :
    Turn.Widens small large ⟨first, .settled outcome, []⟩ ⟨second, .settled outcome, []⟩ :=
  .inr ⟨wider, rfl, .nil⟩

/-- An entry that is refused in the one is refused in the other, for the same reason. -/
theorem Wider.refuse (wider : Wider small large first second) (error : ScriptError) :
    Turn.Widens small large (.refuse first error) (.refuse second error) :=
  wider.settles (.error error)

/-- A stopwatch is started in both stores, or counting is on in one of them alone. -/
theorem Wider.start (wider : Wider small large first second) (counter : Counter)
    (counted : large.counting = small.counting) :
    second.counters.start? counter = first.counters.start? counter := by
  rw [wider.counters counted]

/-- What is prepared on a processor and entered then. -/
theorem Wider.enters (wider : Wider small large first second) (id : CoroutineId)
    {attempt : Attempt Processor Nat}
    (follows : Attempt.Follows Overflow Processor.Wider attempt attempt)
    {waiting waitingToo : Pending}
    (alike : waiting.Alike (large.counting = small.counting) waitingToo) :
    Turn.Widens small large
      (match onProcessor id attempt first with
        | (entered, store) => ⟨store, Turn.focusAt id entered, [waiting]⟩)
      (match onProcessor id attempt second with
        | (entered, store) => ⟨store, Turn.focusAt id entered, [waitingToo]⟩) := by
  obtain ⟨error, after, run, overflow⟩ | ⟨entered, after, left, run, follow, reached⟩ :=
    (follows_onProcessor id follows).runs wider
  · rw [run]
    exact .inl overflow
  · rw [run, follow]
    exact .inr ⟨reached, rfl, .cons alike .nil⟩

/-- A call begins in the same way, since the guard and the heights to go back to are the same,
unless its own arguments are what overflows the smaller stack. -/
theorem Wider.beginCall (wider : Wider small large first second) (id : CoroutineId)
    (callee : Option Value) (arguments : List Value) :
    Turn.Widens small large (first.beginCall id callee arguments)
      (second.beginCall id callee arguments) := by
  have values : (second.processor id).values.height = (first.processor id).values.height :=
    congrArg Array.size (wider.processor id).values.items
  have frames : (second.processor id).frames.height = (first.processor id).frames.height :=
    congrArg Array.size (wider.processor id).frames.items
  simp only [Store.beginCall, wider.passGuard id, values, frames, (wider.processor id).mayYield,
    wider.chunk]
  cases first.passGuard id with
  | error error => exact wider.refuse error
  | ok guard =>
    have inside : Wider small large
        ((first.setGuard id guard).modifyProcessor id ({ · with mayYield := false }))
        ((second.setGuard id guard).modifyProcessor id ({ · with mayYield := false })) :=
      (wider.setGuard id guard).modifyProcessor id fun both => { both with mayYield := rfl }
    exact inside.enters id (Processor.likeness_wider.enterFromHost first.chunk callee arguments)
      (.closeCall id _ _ _ (wider.start .execution))

/-- A resume is let in or refused in the same way, and begins in the same way unless it
overflows. -/
theorem Wider.beginResume (wider : Wider small large first second) (target : CoroutineId)
    (arguments : List Value) :
    Turn.Widens small large (first.beginResume target arguments)
      (second.beginResume target arguments) := by
  simp only [Store.beginResume, wider.status target, wider.access target, wider.passGuard target,
    wider.chunk]
  split
  · exact wider.refuse _
  · split
    · exact wider.refuse _
    · split
      · exact wider.refuse _
      · cases first.passGuard target with
        | error error => exact wider.refuse error
        | ok guard =>
          have inside :=
            ((wider.setGuard target guard).setStatus target .running).setAccess target .executing
          exact inside.enters target (Processor.follows_enterFromResume first.chunk arguments)
            (.closeResume target _ (wider.start .resume))

/-- It makes no difference that the resumer becomes Normal before. -/
theorem Wider.beginChildResume (wider : Wider small large first second) (id target : CoroutineId)
    (arguments : List Value) :
    Turn.Widens small large (first.beginChildResume id target arguments)
      (second.beginChildResume id target arguments) := by
  simp only [Store.beginChildResume, wider.status id]
  split
  · exact ((wider.setStatus id .normal).beginResume target arguments).andThen (.wake id)
  · exact wider.beginResume target arguments

/-- Nor that a processor has to be borrowed, which is refused in both or in none. -/
theorem Wider.borrowing (wider : Wider small large first second) (id : CoroutineId)
    {begin : Store → Turn} (begins : ∀ {first second : Store}, Wider small large first second →
      Turn.Widens small large (begin first) (begin second)) :
    Turn.Widens small large (Store.borrowing id begin first) (Store.borrowing id begin second) := by
  simp only [Store.borrowing, wider.access id]
  split
  · exact wider.refuse _
  · exact (begins (wider.setAccess id .executing)).andThen (.release id)

/-- A call through the script is a call on a borrowed processor. -/
theorem Wider.beginScriptCall (wider : Wider small large first second) (callee : Value)
    (arguments : List Value) :
    Turn.Widens small large (first.beginScriptCall callee arguments)
      (second.beginScriptCall callee arguments) :=
  wider.borrowing main fun both => both.beginCall main (some callee) arguments

/-- A value is put on the script's own stack unless that overflows. -/
theorem Wider.pushMain (wider : Wider small large first second) (value : Value) :
    Turn.Widens small large (Operation.pushMain value first) (Operation.pushMain value second) := by
  simp only [Operation.pushMain]
  obtain ⟨error, after, run, overflow⟩ | ⟨result, after, left, run, follow, reached⟩ :=
    (follows_onProcessor main (Processor.likeness_wider.push value)).runs wider
  · rw [run]
    exact .inl overflow
  · rw [run, follow]
    exact reached.settles _

/-- Whatever the host begins. -/
theorem Wider.begin (wider : Wider small large first second) (operation : Operation) :
    Turn.Widens small large (operation.begin first) (operation.begin second) := by
  cases operation with
  | call callee arguments => exact wider.beginScriptCall callee arguments
  | callTop arguments => exact wider.borrowing main fun both => both.beginCall main none arguments
  | push value => exact wider.borrowing main fun both => both.pushMain value
  | resume target arguments => exact wider.beginResume target arguments
  | create function =>
    have spawns : Attempt.Matches (Wider small large) (spawn main function.collapse)
        (spawn main function.collapse) := follows_spawn main _
    obtain ⟨created, after, left, run, follow, reached⟩ := spawns.runs wider
    simp only [Operation.begin, createCoroutine, run, follow]
    exact reached.settles _
  | edit change => exact (wider.edit change).settles _

end Store

/-! ### Closing -/

section

variable {first second : Store}

/-- Both stop the watches that they have. If only one of them counts only one has any. -/
theorem Store.Wider.stopWatch (wider : Store.Wider small large first second)
    {stopwatch other : Option Stopwatch}
    (timed : large.counting = small.counting → other = stopwatch) :
    Store.Wider small large (Machine.stopWatch stopwatch first)
      (Machine.stopWatch other second) := by
  -- If only one of the two counts, nothing is said of the counters.
  have counters : large.counting = small.counting →
      (Machine.stopWatch other second).counters = (Machine.stopWatch stopwatch first).counters := by
    intro counted
    rw [timed counted]
    cases stopwatch with
    | none => exact wider.counters counted
    | some stopwatch => exact congrArg (·.stop stopwatch) (wider.counters counted)
  cases stopwatch <;> cases other <;> exact { wider with counters := counters }

/-- Both leave the guard, which is the same in both, and a debugger that cannot tell them apart does
the same in both. -/
theorem Host.Blind.leaveGuard (blind : host.Blind small large)
    (wider : Store.Wider small large first second) (id : CoroutineId) (world : W) :
    Store.Wider small large (Machine.leaveGuard host id first world).1
        (Machine.leaveGuard host id second world).1 ∧
      (Machine.leaveGuard host id second world).2 = (Machine.leaveGuard host id first world).2 := by
  simp only [Machine.leaveGuard, (wider.processor id).guard]
  obtain ⟨outermost, guard⟩ := (first.processor id).guard.leave
  have left := wider.setGuard id guard
  cases outermost with
  | false => exact ⟨left, rfl⟩
  | true =>
    dsimp only
    rw [left.debugger]
    cases (first.setGuard id guard).debugger with
    | none => exact ⟨left, rfl⟩
    | some debugger =>
      have told := blind.executionEnded left debugger id world
      simp only [told]
      exact ⟨{ left with debugger := rfl }, trivial⟩

end

/-! ### Steps -/

namespace Machine

/-- Two machines at the same place, the second with no less room. -/
structure Wider (small large : Settings) (first second : Machine W) : Prop where
  store : Store.Wider small large first.store second.store
  world : second.world = first.world
  focus : second.focus = first.focus
  waiting : Waiting small large first.pending second.pending

/-- A stack of the first machine is full, or the second one is at the same place. -/
def Widens (small large : Settings) (first second : Machine W) : Prop :=
  first.focus.overflows = true ∨ Wider small large first second

section

variable {store other : Store} {pending waiting : List Pending}

/-- Machines that enter the same are at the same place. -/
theorem widens_enter {turn later : Turn} (widens : Turn.Widens small large turn later) (world : W)
    (outer : Waiting small large pending waiting) :
    Widens small large (enter turn world pending) (enter later world waiting) := by
  obtain overflows | wider := widens
  · exact .inl overflows
  · exact .inr ⟨wider.store, rfl, wider.focus, List.rel_append wider.waiting outer⟩

/-- An instruction does the same in both unless it overflows, also where it is about other
coroutines. -/
theorem widens_code (wider : Store.Wider small large store other) (id : CoroutineId) (pointer : Nat)
    (world : W) (outer : Waiting small large pending waiting) :
    Widens small large (stepCode id pointer store world pending)
      (stepCode id pointer other world waiting) := by
  rw [stepCode, stepCode, wider.chunk]
  cases store.chunk.instruction? pointer with
  | none => exact .inr ⟨wider, rfl, rfl, outer⟩
  | some instruction =>
    obtain ⟨error, after, run, overflow⟩ | ⟨result, after, left, run, follow, reached⟩ :=
      (Store.follows_execute id instruction (pointer + 1)).runs wider
    · simp only [run]
      exact .inl overflow
    · simp only [run, follow]
      cases result with
      | error error => exact .inr ⟨reached, rfl, rfl, outer⟩
      | ok flow =>
        cases flow with
        | goto next => exact .inr ⟨reached, rfl, rfl, outer⟩
        | returned value => exact .inr ⟨reached, rfl, rfl, outer⟩
        | yielded value resumeAt => exact .inr ⟨reached, rfl, rfl, outer⟩
        | callHost function arguments resumeAt =>
          exact .inr ⟨reached, rfl, rfl, .cons (.same _) outer⟩
        | resume target arguments resumeAt =>
          exact widens_enter (reached.beginChildResume id target arguments) world
            (.cons (.same _) outer)

/-- A request does the same in both. Entries do unless they overflow, changes by hand never do, and
what the host is told is the same. -/
theorem widens_request (wider : Store.Wider small large store other) (id : CoroutineId)
    (request : Request) (world : W) (outer : Waiting small large pending waiting) :
    Widens small large (stepRequest id request store world pending)
      (stepRequest id request other world waiting) := by
  cases request with
  | finish outcome => exact .inr ⟨wider, rfl, rfl, outer⟩
  | call callee arguments =>
    exact widens_enter (wider.beginCall id (some callee) arguments) world (.cons (.same _) outer)
  | resume target arguments =>
    exact widens_enter (wider.beginChildResume id target arguments) world (.cons (.same _) outer)
  | create function =>
    have spawns : Attempt.Matches (Store.Wider small large) (Store.spawn id function)
        (Store.spawn id function) := Store.follows_spawn id function
    obtain ⟨created, after, left, run, follow, reached⟩ := spawns.runs wider
    simp only [stepRequest, run, follow]
    exact .inr ⟨reached, rfl, rfl, outer⟩
  | setGlobal name value =>
    exact .inr ⟨wider.edit (.setEntry Store.globals name value), rfl, rfl, outer⟩
  | callScript callee arguments =>
    exact widens_enter (wider.beginScriptCall callee arguments) world (.cons (.same _) outer)
  | resumeHandle target arguments =>
    exact widens_enter (wider.beginResume target arguments) world (.cons (.same _) outer)
  | enterGuard thread =>
    simp only [stepRequest, (wider.processor id).guard]
    cases (store.processor id).guard.enter thread with
    | ok guard => exact .inr ⟨wider.setGuard id guard, rfl, rfl, outer⟩
    | error error => exact .inr ⟨wider, rfl, rfl, outer⟩
  | attach debugger => exact .inr ⟨wider.edit (.attach debugger), rfl, rfl, outer⟩
  | resetCounters => exact .inr ⟨wider.edit .resetCounters, rfl, rfl, outer⟩
  | edit change => exact .inr ⟨wider.edit change, rfl, rfl, outer⟩

/-- A result is pushed in both unless there is no room for it in the first one. -/
theorem widens_pushResult (wider : Store.Wider small large store other) (id : CoroutineId)
    (resumeAt : Nat) (value : Value) (world : W) (outer : Waiting small large pending waiting) :
    Widens small large (pushResult id resumeAt value store world pending)
      (pushResult id resumeAt value other world waiting) := by
  rw [pushResult, pushResult]
  obtain ⟨error, after, run, overflow⟩ | ⟨result, after, left, run, follow, reached⟩ :=
    (Store.follows_onProcessor id (Processor.likeness_wider.push value)).runs wider
  · rw [run]
    exact .inl overflow
  · rw [run, follow]
    cases result with
    | ok done => exact .inr ⟨reached, rfl, rfl, outer⟩
    | error error => exact .inr ⟨reached, rfl, rfl, outer⟩

/-- A call is closed in the same way, since it goes back to the same heights. -/
theorem widens_closeCall (blind : host.Blind small large)
    (wider : Store.Wider small large store other) (id : CoroutineId) (valueHeight frameHeight : Nat)
    (mayYield : Bool) {stopwatch twin : Option Stopwatch}
    (timed : large.counting = small.counting → twin = stopwatch) (outcome : Outcome) (world : W)
    (outer : Waiting small large pending waiting) :
    Widens small large
      (stepSettled host outcome (.closeCall id valueHeight frameHeight mayYield stopwatch)
        store world pending)
      (stepSettled host outcome (.closeCall id valueHeight frameHeight mayYield twin) other world
        waiting) := by
  have restored :=
    wider.modifyProcessor id fun both => both.restore valueHeight frameHeight mayYield
  obtain ⟨closed, worlds⟩ := blind.leaveGuard (restored.stopWatch timed) id world
  exact .inr ⟨closed, worlds, rfl, outer⟩

/-- So is a resume, whose processor is left as it is or cleared, depending on the outcome alone. -/
theorem widens_closeResume (blind : host.Blind small large)
    (wider : Store.Wider small large store other) (target : CoroutineId) (before : CoroutineStatus)
    {stopwatch twin : Option Stopwatch} (timed : large.counting = small.counting → twin = stopwatch)
    (outcome : Outcome) (world : W) (outer : Waiting small large pending waiting) :
    Widens small large
      (stepSettled host outcome (.closeResume target before stopwatch) store world pending)
      (stepSettled host outcome (.closeResume target before twin) other world waiting) := by
  have cleared : Store.Wider small large (store.modifyProcessor target (processorAfter outcome))
      (other.modifyProcessor target (processorAfter outcome)) := by
    refine wider.modifyProcessor target fun both => ?_
    unfold processorAfter
    split
    · exact { both with savedPointer := rfl }
    · exact both.clear
  obtain ⟨closed, worlds⟩ := blind.leaveGuard (cleared.stopWatch timed) target world
  exact .inr ⟨(closed.setStatus target _).setAccess target .free, worlds, rfl, outer⟩

/-- An outcome is handed on in the same way, to whoever waits for it in both. Those who wait differ
in their stopwatches at most. -/
theorem widens_settled (blind : host.Blind small large)
    (wider : Store.Wider small large store other) (outcome : Outcome) {next nextToo : Pending}
    (alike : next.Alike (large.counting = small.counting) nextToo) (world : W)
    (outer : Waiting small large pending waiting) :
    Widens small large (stepSettled host outcome next store world pending)
      (stepSettled host outcome nextToo other world waiting) := by
  cases alike with
  | closeCall id valueHeight frameHeight mayYield timed =>
    exact widens_closeCall blind wider id valueHeight frameHeight mayYield timed outcome world outer
  | closeResume target before timed =>
    exact widens_closeResume blind wider target before timed outcome world outer
  | same =>
    cases next with
    | hostFunction id resumeAt =>
      cases outcome with
      | ok exit => exact widens_pushResult wider id resumeAt exit.value world outer
      | error error => exact .inr ⟨wider, rfl, rfl, outer⟩
    | resumeInstruction id resumeAt =>
      cases outcome with
      | ok exit => exact widens_pushResult wider id resumeAt _ world outer
      | error error =>
        simp only [stepSettled]
        split
        · exact .inr ⟨wider, rfl, rfl, outer⟩
        · exact widens_pushResult wider id resumeAt _ world outer
    | closeCall id valueHeight frameHeight mayYield stopwatch =>
      exact widens_closeCall blind wider id valueHeight frameHeight mayYield
        (fun _ => rfl) outcome world
        outer
    | closeResume target before stopwatch =>
      exact widens_closeResume blind wider target before (fun _ => rfl) outcome world outer
    | wake id => exact .inr ⟨wider.setStatus id .running, rfl, rfl, outer⟩
    | release id => exact .inr ⟨wider.setAccess id .free, rfl, rfl, outer⟩
    | hostCall id => exact .inr ⟨wider, rfl, rfl, outer⟩
    | hostResume id => exact .inr ⟨wider, rfl, rfl, outer⟩

end

variable {first second : Machine W}

/-- A step of the first machine is the same step of the second one, unless it finds a stack full.
The cases are what a machine can stand at. -/
theorem Wider.step (wider : Wider small large first second) (blind : host.Blind small large) :
    Widens small large (first.step host) (second.step host) := by
  obtain ⟨store, world, focus, pending⟩ := first
  obtain ⟨other, worldToo, focusToo, waiting⟩ := second
  obtain ⟨stores, sameWorld, samePlace, outer⟩ := wider
  obtain rfl : worldToo = world := sameWorld
  obtain rfl : focusToo = focus := samePlace
  cases focusToo with
  | code id pointer => exact widens_code stores id pointer _ outer
  | host id event =>
    simp only [Machine.step, blind.respond stores]
    exact widens_request stores id _ _ outer
  | settled outcome =>
    cases outer with
    | nil => exact .inr ⟨stores, rfl, rfl, .nil⟩
    | cons alike outer => exact widens_settled blind stores outcome alike _ outer

/-- An operation of the host leads both machines to the same place, unless it finds a stack full. -/
theorem Wider.begin (wider : Wider small large first second) (operation : Operation) (world : W) :
    Widens small large (enter (operation.begin first.store) world [])
      (enter (operation.begin second.store) world []) :=
  widens_enter (wider.store.begin operation) world .nil

end Machine

end CoroutineVM
