import CoroutineVM.Proofs.Accounts.Ledger
import CoroutineVM.Proofs.Machine.Isolation
import CoroutineVM.Proofs.Machine.Steps
import CoroutineVM.Proofs.Machine.Supplies

/-!
# Steps and the books

What is written down of a stage is what the machine does there. Whoever is let in takes a stopwatch
and enters the guard; whoever ends stops the stopwatch and leaves the guard, and the debugger is
told if that was the outermost level. Everything else, refusals among it, concerns neither counters
nor guards. Functions of the host are taken to leave the guards alone where the run comes to them,
and the debugger to note down what it is told.
-/

namespace CoroutineVM

open Processor

variable {W : Type} {host : Host W} {told : W → List CoroutineId} {recorder : DebuggerId}

/-- The function of the host that runs here, if there is one, operates no guard and writes nothing
to the notes of the debugger. -/
structure Machine.Unmeddled (host : Host W) (told : W → List CoroutineId) (machine : Machine W) :
    Prop where
  spares : ∀ request, machine.request? host = some request → request.touchesGuard = false
  notes : ∀ id event, machine.focus = .host id event →
    told (host.respond id event machine.store machine.world).1 = told machine.world

/-- The debugger notes down of whom it is told. -/
def Host.Records (host : Host W) (told : W → List CoroutineId) (recorder : DebuggerId) : Prop :=
  ∀ id store world, told (host.executionEnded recorder id store world).1 = id :: told world

namespace Store

variable {id : CoroutineId} {store : Store}

/-! ### Counters and guards of a store -/

/-- Neither counters nor guards have changed. -/
structure Undisturbed (before after : Store) : Prop where
  counters : after.counters = before.counters
  nesting : after.nesting = before.nesting

/-- A store that has not been changed is undisturbed. -/
theorem Undisturbed.refl (store : Store) : Undisturbed store store := ⟨rfl, rfl⟩

/-- What is undisturbed twice over is undisturbed. -/
theorem Undisturbed.trans {first second third : Store} (left : Undisturbed first second)
    (right : Undisturbed second third) : Undisturbed first third :=
  ⟨right.counters.trans left.counters, right.nesting.trans left.nesting⟩

/-- How deep the entries of each coroutine are nested is told by the coroutines alone. -/
theorem nesting_congr {first second : Store} (same : second.coroutines = first.coroutines) :
    second.nesting = first.nesting := by
  funext id
  rw [nesting, nesting, processor, processor, coroutine_congr same]

/-- A change of one coroutine concerns the nesting of that one. -/
theorem nesting_modifyCoroutine (known : store.Has id) (change : Coroutine → Coroutine) :
    (store.modifyCoroutine id change).nesting =
      Function.update store.nesting id (change (store.coroutine id)).processor.guard.nesting := by
  funext other
  by_cases same : other = id
  · subst same
    rw [Function.update_self, nesting, processor, coroutine_modifyCoroutine known]
  · rw [Function.update_of_ne same, nesting, nesting, processor, processor,
      coroutine_modifyCoroutine_other same]

/-- A change that leaves the guard of its coroutine as it is, whether there is such a coroutine or
not. -/
theorem undisturbed_modify {change : Coroutine → Coroutine}
    (kept : (change (store.coroutine id)).processor.guard = (store.processor id).guard) :
    Undisturbed store (store.modifyCoroutine id change) := by
  constructor
  case counters => rfl
  case nesting =>
    funext other
    obtain same | ⟨rfl, _, changed⟩ := coroutine_modify_cases store id other change
    · rw [nesting, nesting, processor, processor, same]
    · rw [nesting, processor, changed, kept, nesting]

/-- What code does on one processor disturbs nothing if it leaves the guard of that one alone. -/
theorem Touches.undisturbed {relation : Processor → Processor → Prop} {before after : Store}
    (touches : Touches id relation before after)
    (kept : ∀ processor, relation (before.processor id) processor →
      processor.guard = (before.processor id).guard) : Undisturbed before after := by
  constructor
  case counters => exact touches.counters
  case nesting =>
    funext other
    by_cases same : other = id
    · subst same
      rw [nesting, kept _ touches.processor, nesting]
    · obtain unchanged | ⟨unknown, _, parent, closure, newborn⟩ := touches.others other same
      · simp only [nesting, Store.processor, unchanged]
      · simp only [nesting, Store.processor, newborn, coroutine_gone unknown]
        rfl

/-- A new coroutine has a guard that nobody has entered, and the guards of the others stay. -/
theorem undisturbed_spawn (known : store.Has id) (parent : CoroutineId) (function : Value) :
    Undisturbed store (spawn parent function store).2 := by
  obtain unchanged | ⟨coroutine, newborn, created⟩ := spawn_store parent function store
  · rw [unchanged]
    exact .refl store
  · rw [created]
    exact (touches_spawn known newborn).undisturbed fun _ keeps => keeps.guard

/-- A value that is pushed, or does not fit, is not entered in any book. -/
theorem undisturbed_push (id : CoroutineId) (value : Value) (store : Store) :
    Undisturbed store (onProcessor id (push value) store).2 := by
  rw [onProcessor_eq]
  apply undisturbed_modify
  simp only [push]
  split <;> rfl

/-- No instruction counts anything or passes a guard by itself; what it begins does so when it is
let in. -/
theorem undisturbed_execute (known : store.Has id) (instruction : Instruction) (next : Nat) :
    Undisturbed store (execute id instruction next store).2 := by
  cases run : execute id instruction next store with
  | mk outcome after =>
    obtain ⟨flow, rfl, touches⟩ | ⟨error, rfl, touches, _⟩ :=
      (execute_effects instruction next known).either run
    · exact touches.undisturbed fun _ effect => (aligned_effect effect).guard
    · exact touches.undisturbed fun _ effect => (aligned_falters effect).guard

/-! ### Who is let in -/

/-- A call that the guard refuses is not written down. -/
theorem calls_of_refused {error : ScriptError} (refused : store.passGuard id = .error error) :
    store.calls id = .other := by
  rw [calls, refused]

/-- One that it lets in is, with the number of entries that are around it. -/
theorem calls_of_admitted {guard : ThreadGuard} (admitted : store.passGuard id = .ok guard) :
    store.calls id = .admits ⟨.execution, id, store.nesting id⟩ := by
  rw [calls, admitted]

/-- A resume that is refused is not written down, whether status, access or guard has refused it. -/
theorem resumes_of_refuses {error : ScriptError} (refuses : store.Refuses id error) :
    store.resumes id = .other := by
  rw [resumes]
  cases refuses with
  | dead dead =>
    rw [if_neg]
    rintro ⟨resumable, _⟩
    rw [dead] at resumable
    cases resumable
  | unready unready _ =>
    rw [if_neg]
    rintro ⟨resumable, _⟩
    rw [unready] at resumable
    cases resumable
  | used resumable used => rw [if_neg fun both => used both.2]
  | foreign resumable free refused => rw [if_pos ⟨resumable, free⟩, refused]

/-- One that is let in is, as a call would be. -/
theorem resumes_of_admits {guard : ThreadGuard} (admits : store.Admits id guard) :
    store.resumes id = .admits ⟨.resume, id, store.nesting id⟩ := by
  rw [resumes, if_pos ⟨admits.resumable, admits.free⟩, admits.admitted]

/-- What is asked of a coroutine before a resume has nothing to do with another one. -/
theorem resumes_modify_other {target : CoroutineId} (different : target ≠ id)
    (change : Coroutine → Coroutine) :
    (store.modifyCoroutine id change).resumes target = store.resumes target := by
  simp only [resumes, status, access, passGuard, nesting, processor,
    coroutine_modifyCoroutine_other different]
  rfl

end Store

/-- Preparing a processor for a resume, in whichever way it comes out, leaves the guard alone. The
guard has been passed before that. -/
theorem Processor.ResumeEntry.guard {chunk : Chunk} {arguments : List Value}
    {before after : Processor} {entered : Except ScriptError Nat}
    (entry : ResumeEntry chunk arguments before entered after) :
    after.guard = before.guard := by
  cases entry with
  | continues saved grows values => exact grows.guard
  | overflows saved grows own => exact grows.guard
  | starts fresh entry prepared => exact (aligned_enterFromHost prepared).guard
  | spent fresh entry => rfl

/-! ### Entries -/

section

variable {before : Machine W} {store : Store} {id : CoroutineId} {outer : List Pending} {world : W}

/-- Where counters and guards are as before, the same timers are underway and the debugger has noted
nothing more, nothing has happened that would be written down. -/
theorem happens_quiet {after : Machine W} (calm : before.store.Undisturbed after.store)
    (same : timers after.pending = timers before.pending)
    (notes : told after.world = told before.world) :
    before.Happens told after .other := .other (fun _ => calm.nesting) calm.counters same notes

/-- Whoever is let in enters the guard with a stopwatch, if counting is on. Calls and resumes do
this in the same way, so that they share this lemma. -/
theorem happens_entry (calm : before.store.Undisturbed store) (known : store.Has id)
    (same : timers outer = timers before.pending) (notes : told world = told before.world)
    {guard : ThreadGuard} (admitted : store.passGuard id = .ok guard)
    {change : Coroutine → Coroutine}
    (entered : (change (store.coroutine id)).processor.guard = guard) (counter : Counter)
    (focus : Focus) {closing : Pending}
    (timer : closing.timer? = some (store.counters.start? counter, id)) :
    before.Happens told ⟨store.modifyCoroutine id change, world, focus, closing :: outer⟩
      (.admits ⟨counter, id, store.nesting id⟩) := by
  obtain ⟨nested, _⟩ := enter_eq admitted
  have deeper : guard.nesting = store.nesting id + 1 := congrArg ThreadGuard.nesting nested
  apply Machine.Happens.admits
  case nested => rw [calm.nesting]
  case nesting => rw [Store.nesting_modifyCoroutine known, entered, deeper, calm.nesting]
  case counters => exact calm.counters
  case opened => rw [timers, List.filterMap_cons, timer, calm.counters, ← same, timers]
  case notes => exact notes

/-- A call that is let in starts a watch and enters the guard, both at once; one that is refused
does neither. It makes no difference that the store has been changed before, if it was
undisturbed. -/
theorem happens_call (calm : before.store.Undisturbed store) (known : store.Has id)
    (same : timers outer = timers before.pending) (notes : told world = told before.world)
    (callee : Option Value) (arguments : List Value) :
    before.Happens told (Machine.enter (store.beginCall id callee arguments) world outer)
      (store.calls id) := by
  cases admitted : store.passGuard id with
  | error error =>
    rw [enter_beginCall_refused admitted, Store.calls_of_refused admitted]
    exact happens_quiet calm same notes
  | ok guard =>
    cases prepared : enterFromHost store.chunk callee arguments
      { store.processor id with guard := guard, mayYield := false } with
    | mk entered processor =>
      rw [enter_beginCall known admitted prepared, Store.calls_of_admitted admitted]
      exact happens_entry calm known same notes admitted (aligned_enterFromHost prepared).guard
        .execution _ rfl

/-- The same is true of a resume. -/
theorem happens_resume (calm : before.store.Undisturbed store)
    (same : timers outer = timers before.pending) (notes : told world = told before.world)
    (target : CoroutineId) (arguments : List Value) :
    before.Happens told (Machine.enter (store.beginResume target arguments) world outer)
      (store.resumes target) := by
  obtain ⟨error, refuses⟩ | ⟨guard, admits⟩ := refuses_or_admits store target
  · rw [enter_beginResume_refused refuses, Store.resumes_of_refuses refuses]
    exact happens_quiet calm same notes
  · cases prepared : enterFromResume store.chunk arguments
      { store.processor target with guard := guard } with
    | mk entered processor =>
      rw [enter_beginResume admits prepared, Store.resumes_of_admits admits]
      exact happens_entry calm (has_of_resumable admits.resumable) same notes admits.admitted
        (resumeEntry_of_prepared prepared).guard .resume _ rfl

/-- And of one by a running coroutine, as its change to Normal disturbs nothing. -/
theorem happens_childResume (calm : before.store.Undisturbed store)
    (same : timers outer = timers before.pending) (notes : told world = told before.world)
    (id target : CoroutineId) (arguments : List Value) :
    before.Happens told (Machine.enter (store.beginChildResume id target arguments) world outer)
      (store.resumes target) := by
  rw [Store.beginChildResume]
  split
  next child =>
    have normal : before.store.Undisturbed (store.setStatus id .normal) :=
      calm.trans (Store.undisturbed_modify rfl)
    have target_kept : (store.setStatus id .normal).resumes target = store.resumes target :=
      Store.resumes_modify_other child.2.symm _
    have waking : timers (.wake id :: outer) = timers before.pending := same
    -- Making the one normal who resumes does not change what is asked of the other one.
    rw [enter_andThen, ← target_kept]
    exact happens_resume normal waking notes target arguments
  next => exact happens_resume calm same notes target arguments

/-- A call through the handle of the script's own processor finds it free, or is turned away. What
is written down is that of the call itself, and nothing if the handle is in use. -/
theorem happens_borrowing (calm : before.store.Undisturbed store) (known : store.Has Store.main)
    (same : timers outer = timers before.pending) (notes : told world = told before.world)
    (callee : Option Value) (arguments : List Value) :
    before.Happens told
      (Machine.enter
        (Store.borrowing Store.main (Store.beginCall Store.main callee arguments) store)
        world outer) store.callsMain := by
  by_cases free : store.access Store.main = .free
  · have taken : before.store.Undisturbed (store.setAccess Store.main .executing) :=
      calm.trans (Store.undisturbed_modify rfl)
    have there : (store.setAccess Store.main .executing).Has Store.main :=
      (Store.has_modifyCoroutine ..).mpr known
    have main_kept : (store.setAccess Store.main .executing).calls Store.main =
        store.calls Store.main := by
      simp only [Store.calls, Store.passGuard, Store.nesting, Store.setAccess, Store.processor,
        Store.coroutine_modifyCoroutine known]
      rfl
    have giving : timers (.release Store.main :: outer) = timers before.pending := same
    rw [enter_borrowing free, Store.callsMain, if_pos free, ← main_kept]
    exact happens_call taken there giving notes callee arguments
  · rw [Store.borrowing, if_pos free, Store.callsMain, if_neg free]
    exact happens_quiet calm same notes

/-- What the host changes is no business of counters and guards, unless it resets or operates them.
Guards are operated by hand only where nothing is under way. -/
theorem happens_edit (before : Machine W) (change : Edit) (focus : Focus)
    (same : timers outer = timers before.pending) (notes : told world = told before.world)
    (apart : change.touchesGuard = true → timers before.pending = []) :
    before.Happens told ⟨before.store.edit change, world, focus, outer⟩ change.happening := by
  have handle : ∀ id access, before.Happens told
      ⟨before.store.setAccess id access, world, focus, outer⟩ .other :=
    fun id access => happens_quiet (Store.undisturbed_modify rfl) same notes
  have unchanged : before.Happens told ⟨before.store, world, focus, outer⟩ .other :=
    happens_quiet (.refl _) same notes
  cases change with
  | resetCounters => exact .resets rfl rfl same notes
  | hold id =>
    simp only [Store.edit, Store.hold]
    split
    · exact unchanged
    · exact handle id .held
  | letGo id =>
    simp only [Store.edit, Store.letGo]
    split
    · exact handle id .free
    · exact unchanged
  | enterGuard id thread =>
    simp only [Store.edit, Store.enterGuard]
    split
    · exact .other (fun busy => absurd (apart rfl) busy) rfl same notes
    · exact unchanged
  | leaveGuard id => exact .other (fun busy => absurd (apart rfl) busy) rfl same notes
  | _ => exact happens_quiet ⟨rfl, rfl⟩ same notes

end

/-! ### Closing -/

section

variable {store : Store} {id : CoroutineId}

/-- To leave a guard counts nothing. -/
theorem counters_leaveGuard (host : Host W) (id : CoroutineId) (store : Store) (world : W) :
    (Machine.leaveGuard host id store world).1.counters = store.counters := by
  simp only [Machine.leaveGuard]
  split <;> rfl

/-- Leaving undoes one entering, and says whether that was the outermost. -/
theorem leave_eq {guard : ThreadGuard} {outer : Nat} (nested : guard.nesting = outer + 1) :
    guard.leave.1 = decide (outer = 0) ∧ guard.leave.2.nesting = outer := by
  obtain ⟨owner, nesting⟩ := guard
  obtain rfl : nesting = outer + 1 := nested
  cases outer <;> simp [ThreadGuard.leave, ThreadGuard.free]

/-- The debugger is told of the end of the outermost entry, and of no other one. That is the entry
after which the guard belongs to nobody. -/
theorem leaveGuard_signals (records : host.Records told recorder) (known : store.Has id)
    (attached : store.debugger = some recorder) (world : W) {outer : Nat}
    (nested : store.nesting id = outer + 1) :
    (Machine.leaveGuard host id store world).1.nesting = Function.update store.nesting id outer ∧
      told (Machine.leaveGuard host id store world).2 =
        if outer = 0 then id :: told world else told world := by
  obtain ⟨outermost, left⟩ := leave_eq nested
  constructor
  · obtain ⟨coroutines, _⟩ := coroutines_leaveGuard host id store world
    rw [Store.nesting_congr coroutines, Store.setGuard, Store.modifyProcessor,
      Store.nesting_modifyCoroutine known, left]
  · have same : (store.setGuard id (store.processor id).guard.leave.2).debugger = some recorder :=
      attached
    simp only [Machine.leaveGuard, outermost, same]
    by_cases last : outer = 0
    · simp only [last, decide_true, if_true]
      exact records id _ world
    · simp only [last, decide_false, if_false]

/-- An entry that ends, by a call or by a resume, stops its watch and leaves its guard, and the
debugger is told exactly if nothing else is under way on that processor. What has been done to the
processor before and is done to the store afterwards matters as little as the outcome does. -/
theorem happens_closing (records : host.Records told recorder) (known : store.Has id)
    (attached : store.debugger = some recorder) {outcome : Outcome} {closing : Pending}
    {stopwatch : Option Stopwatch} (timer : closing.timer? = some (stopwatch, id))
    {pending : List Pending} {world : W} {change : Processor → Processor}
    (kept : (change (store.processor id)).guard = (store.processor id).guard)
    {after : Store} {focus : Focus}
    (calm : Store.Undisturbed (Machine.leaveGuard host id
      (Machine.stopWatch stopwatch (store.modifyProcessor id change)) world).1 after) :
    Machine.Happens told ⟨store, world, .settled outcome, closing :: pending⟩
      ⟨after, (Machine.leaveGuard host id
        (Machine.stopWatch stopwatch (store.modifyProcessor id change)) world).2, focus, pending⟩
      .finishes := by
  have changed : store.Undisturbed (store.modifyProcessor id change) :=
    Store.undisturbed_modify kept
  obtain ⟨stopped, lasts⟩ := coroutines_stopWatch stopwatch (store.modifyProcessor id change)
  apply Machine.Happens.finishes stopwatch id
  case closed => rw [timers, List.filterMap_cons, timer, timers]
  case counters =>
    rw [calm.counters, counters_leaveGuard]
    cases stopwatch <;> rfl
  case left =>
    intro outer nested
    have nesting : (Machine.stopWatch stopwatch (store.modifyProcessor id change)).nesting =
        store.nesting := (Store.nesting_congr stopped).trans changed.nesting
    have still : (Machine.stopWatch stopwatch (store.modifyProcessor id change)).Has id :=
      lasts.has ((Store.has_modifyCoroutine ..).mpr known)
    have listening : (Machine.stopWatch stopwatch (store.modifyProcessor id change)).debugger =
        some recorder := by
      cases stopwatch <;> exact attached
    -- The guard is left last, when stacks and stopwatch are done with, and neither has touched it.
    rw [calm.nesting, ← nesting]
    exact leaveGuard_signals records still listening world (nesting ▸ nested)

end

/-! ### Steps and operations -/

section

variable {store : Store} {world : W} {id : CoroutineId} {pending : List Pending}

/-- What an instruction does is what the books have of it: an entry if it resumes a coroutine that
lets it in, and nothing otherwise. -/
theorem happens_code {pointer : Nat}
    (orderly : Orderly (⟨store, world, .code id pointer, pending⟩ : Machine W)) :
    Machine.Happens told ⟨store, world, .code id pointer, pending⟩
      (Machine.stepCode id pointer store world pending) (store.executes id pointer) := by
  have known := orderly.known id (driven_code orderly).ne_nil
  rw [Machine.stepCode, Store.executes]
  cases store.chunk.instruction? pointer with
  | none => exact happens_quiet (.refl _) rfl rfl
  | some instruction =>
    have calm := Store.undisturbed_execute known instruction (pointer + 1)
    cases run : Store.execute id instruction (pointer + 1) store with
    | mk outcome after =>
      rw [run] at calm
      simp only [run]
      cases outcome with
      | error error => exact happens_quiet calm rfl rfl
      | ok flow =>
        cases flow with
        | resume target arguments resumeAt =>
          have waits : timers (.resumeInstruction id resumeAt :: pending) = timers pending := rfl
          exact happens_childResume calm waits rfl id target arguments
        | _ => exact happens_quiet calm rfl rfl

/-- What a request does is what the books have of it, provided that it does not operate a guard by
hand. -/
theorem happens_request {event : HostEvent}
    (orderly : Orderly (⟨store, world, .host id event, pending⟩ : Machine W)) {later : W}
    (notes : told later = told world) {request : Request} (spares : request.touchesGuard = false) :
    Machine.Happens told ⟨store, world, .host id event, pending⟩
      (Machine.stepRequest id request store later pending) (request.happening id store) := by
  have known := orderly.known id (driven_of_function orderly.suits).ne_nil
  have calm : store.Undisturbed store := .refl store
  have calling : timers (.hostCall id :: pending) = timers pending := rfl
  have resuming : timers (.hostResume id :: pending) = timers pending := rfl
  have edited : ∀ {change : Edit}, change.touchesGuard = false →
      Machine.Happens told ⟨store, world, .host id event, pending⟩
        ⟨store.edit change, later, .host id .done, pending⟩ change.happening := by
    intro change apart
    apply happens_edit ⟨store, world, .host id event, pending⟩ change _ rfl notes
    intro touches
    rw [apart] at touches
    cases touches
  cases request with
  | finish outcome => exact happens_quiet calm rfl notes
  | call callee arguments => exact happens_call calm known calling notes (some callee) arguments
  | resume target arguments => exact happens_childResume calm resuming notes id target arguments
  | create function => exact happens_quiet (Store.undisturbed_spawn known id function) rfl notes
  | setGlobal name value => exact edited rfl
  | callScript callee arguments =>
    exact happens_borrowing calm orderly.main calling notes (some callee) arguments
  | resumeHandle target arguments => exact happens_resume calm resuming notes target arguments
  | enterGuard thread => cases spares
  | attach debugger => exact edited rfl
  | resetCounters => exact edited rfl
  | edit change => exact edited spares

/-- A result that is handed to code is not written down. -/
theorem happens_pushResult (outcome : Outcome) (waiting : Pending) (quiet : waiting.timer? = none)
    (id : CoroutineId) (resumeAt : Nat) (value : Value) (store : Store) (world : W)
    (pending : List Pending) :
    Machine.Happens told ⟨store, world, .settled outcome, waiting :: pending⟩
      (Machine.pushResult id resumeAt value store world pending) .other := by
  have calm := Store.undisturbed_push id value store
  have same : timers (waiting :: pending) = timers pending := by
    rw [timers, List.filterMap_cons, quiet, timers]
  rw [Machine.pushResult]
  cases run : Store.onProcessor id (push value) store with
  | mk result after =>
    rw [run] at calm
    cases result with
    | ok done => exact happens_quiet calm same.symm rfl
    | error error => exact happens_quiet calm same.symm rfl

/-- An outcome that is handed on ends an entry if who waits for it is to close one, and nothing is
written down if not. -/
theorem happens_settled (records : host.Records told recorder) {outcome : Outcome}
    {waiting : Pending}
    (orderly : Orderly (⟨store, world, .settled outcome, waiting :: pending⟩ : Machine W))
    (attached : waiting.closes?.isSome = true → store.debugger = some recorder) :
    Machine.Happens told ⟨store, world, .settled outcome, waiting :: pending⟩
      (Machine.stepSettled host outcome waiting store world pending)
      (if waiting.closes?.isSome then .finishes else .other) := by
  cases waiting with
  | hostFunction on resumeAt =>
    cases outcome with
    | ok exit => exact happens_pushResult _ _ rfl on resumeAt exit.value store world pending
    | error error => exact happens_quiet (.refl _) rfl rfl
  | resumeInstruction on resumeAt =>
    cases outcome with
    | ok exit => exact happens_pushResult _ _ rfl on resumeAt _ store world pending
    | error error =>
      simp only [Machine.stepSettled]
      split
      · exact happens_quiet (.refl _) rfl rfl
      · exact happens_pushResult _ _ rfl on resumeAt _ store world pending
  | closeCall on valueHeight frameHeight mayYield stopwatch =>
    have marked := Pending.mark_closeCall on valueHeight frameHeight mayYield stopwatch
    have known : store.Has on := orderly.known on (by simp [marks_cons, marked])
    have kept : (restore valueHeight frameHeight mayYield (store.processor on)).guard =
        (store.processor on).guard := rfl
    exact happens_closing records known (attached rfl) rfl kept (.refl _)
  | closeResume target before stopwatch =>
    have marked := Pending.mark_closeResume target before stopwatch
    have known : store.Has target := orderly.known target (by simp [marks_cons, marked])
    have kept : (Machine.processorAfter outcome (store.processor target)).guard =
        (store.processor target).guard := by
      unfold Machine.processorAfter
      split <;> rfl
    apply happens_closing records known (attached rfl) rfl kept
    exact (Store.undisturbed_modify rfl).trans (Store.undisturbed_modify rfl)
  | wake on => exact happens_quiet (Store.undisturbed_modify rfl) rfl rfl
  | release on => exact happens_quiet (Store.undisturbed_modify rfl) rfl rfl
  | hostCall on => exact happens_quiet (.refl _) rfl rfl
  | hostResume on => exact happens_quiet (.refl _) rfl rfl

variable {machine : Machine W}

/-- What is written down of a step is what happens there. The cases are what a machine can stand at:
code, a function of the host, and an outcome. -/
theorem happens_step (orderly : Orderly machine) (records : host.Records told recorder)
    (unmeddled : machine.Unmeddled host told)
    (attached : machine.happening host = .finishes → machine.store.debugger = some recorder) :
    machine.Happens told (machine.step host) (machine.happening host) := by
  obtain ⟨store, world, focus, pending⟩ := machine
  cases focus with
  | code id pointer => exact happens_code orderly
  | host id event =>
    exact happens_request orderly (unmeddled.notes id event rfl) (unmeddled.spares _ rfl)
  | settled outcome =>
    cases pending with
    | nil => exact happens_quiet (.refl _) rfl rfl
    | cons waiting pending =>
      apply happens_settled records orderly
      intro closes
      apply attached
      simp only [Machine.happening, closes, if_true]

/-- What is written down of an operation is what happens when it begins: an entry if it calls or
resumes and is let in, a reset, or nothing. -/
theorem happens_begin (orderly : Orderly machine) (rests : machine.atRest = true)
    (operation : Operation) (notes : told world = told machine.world) :
    machine.Happens told (Machine.enter (operation.begin machine.store) world [])
      (operation.happening machine.store) := by
  obtain ⟨outcome, settled, nobody⟩ := atRest_iff.mp rests
  have same : timers [] = timers machine.pending := by rw [nobody]
  have calm : machine.store.Undisturbed machine.store := .refl _
  cases operation with
  | call callee arguments =>
    exact happens_borrowing calm orderly.main same notes (some callee) arguments
  | callTop arguments => exact happens_borrowing calm orderly.main same notes none arguments
  | push value =>
    simp only [Operation.begin, Store.borrowing]
    split
    · exact happens_quiet calm same notes
    · have taken : machine.store.Undisturbed (machine.store.setAccess Store.main .executing) :=
        Store.undisturbed_modify rfl
      have pushed := Store.undisturbed_push Store.main value
        (machine.store.setAccess Store.main .executing)
      exact happens_quiet (taken.trans pushed) same notes
  | resume target arguments => exact happens_resume calm same notes target arguments
  | create function =>
    exact happens_quiet (Store.undisturbed_spawn orderly.main Store.main function.collapse)
      same notes
  | edit change => exact happens_edit machine change _ same notes fun _ => same.symm

end

end CoroutineVM
