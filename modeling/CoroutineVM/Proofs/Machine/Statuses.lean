import CoroutineVM.Proofs.Machine.Traces

/-!
# The life of a coroutine

The status of a coroutine changes in four places only: where a resume is let in, where it is closed,
and where a coroutine that resumes another one begins and ends to wait. Each of these changes is an
edge of one diagram, provided that guards let their own thread in and that no refusal by a guard
comes up from inside a resume. A step changes the status of a coroutine at most once.
-/

namespace CoroutineVM

open Processor

variable {W : Type}

/-- The ways in which a status may change. -/
inductive CoroutineStatus.Edge : CoroutineStatus → CoroutineStatus → Prop where
  | starts : Edge .notStarted .running
  | continues : Edge .suspended .running
  | yields : Edge .running .suspended
  | waits : Edge .running .normal
  | ends : Edge .running .dead
  | wakes : Edge .normal .running

/-- A status stays the same, or it changes along an edge. -/
def CoroutineStatus.Follows (before after : CoroutineStatus) : Prop :=
  after = before ∨ before.Edge after

/-- No edge leads away from a coroutine that is dead. -/
theorem CoroutineStatus.Follows.dead {after : CoroutineStatus} (follows : dead.Follows after) :
    after = .dead := by
  obtain same | edge := follows
  · exact same
  · cases edge

/-- A coroutine that can be resumed has not started or is suspended, and there is an edge from
both. -/
theorem follows_running {before : CoroutineStatus} (resumable : before.isResumable = true) :
    before.Follows .running := by
  cases before with
  | notStarted => exact .inr .starts
  | suspended => exact .inr .continues
  | _ => cases resumable

/-- The refusal of a guard that belongs to another thread. -/
def ScriptError.isCrossThread : ScriptError → Bool
  | .crossThreadAccess _ _ => true
  | _ => false

/-- Work on a processor does not raise the refusal of a guard by itself. -/
theorem ScriptError.uncrossed_of_own {error : ScriptError} (own : error.isOwn = true) :
    error.isCrossThread = false := by
  cases error with
  | crossThreadAccess owner caller => cases own
  | _ => rfl

/-- A resume that ends with an error leaves its coroutine dead, except for one error: then it has
the status that it had before. -/
theorem statusAfter_error (before : CoroutineStatus) (error : ScriptError) :
    Machine.statusAfter before (.error error) = if error.isCrossThread then before else .dead := by
  cases error <;> rfl

/-- A resume ends along an edge, unless it ends with the refusal of a guard. That one would lead
back to a status from which the coroutine has been resumed, and no edge does. -/
theorem follows_statusAfter (before : CoroutineStatus) {outcome : Outcome}
    (uncrossed : ∀ error, outcome = .error error → error.isCrossThread = false) :
    CoroutineStatus.running.Follows (Machine.statusAfter before outcome) := by
  match outcome with
  | .ok (.returned value) => exact .inr .ends
  | .ok (.yielded value resumeAt) => exact .inr .yields
  | .error error =>
    rw [statusAfter_error, uncrossed error rfl]
    exact .inr .ends

/-- No refusal by a guard has come up: none is on its way to whoever waits, and no host function is
told of one. -/
def Focus.Uncrossed : Focus → Prop
  | .settled (.error error) => error.isCrossThread = false
  | .host _ event => ∀ error, event.error? = some error → error.isCrossThread = false
  | .settled (.ok _) | .code _ _ => True

/-- A host function that is told of no error at all is told of no refusal. -/
theorem uncrossed_untold {id : CoroutineId} {event : HostEvent} (untold : event.error? = none) :
    (Focus.host id event).Uncrossed := by
  intro error told
  cases untold.symm.trans told

/-- A host function that is told what its call or its resume has come to is told of a refusal only
if that is what has come up. -/
theorem uncrossed_handed {id : CoroutineId} (outcome : Outcome) {event : HostEvent}
    (told : ∀ error, event.error? = some error → outcome = .error error)
    (uncrossed : ∀ error, outcome = .error error → error.isCrossThread = false) :
    (Focus.host id event).Uncrossed := fun error said => uncrossed error (told error said)

/-- Every guard lets the script's thread in. -/
def Store.Admitting (store : Store) : Prop := ∀ id, ∃ guard, store.passGuard id = .ok guard

/-- From this store to this machine every status has followed the diagram, and no refusal by a guard
has come up. -/
structure Regular (before : Store) (after : Machine W) : Prop where
  statuses : ∀ id, before.Has id → (before.status id).Follows (after.store.status id)
  uncrossed : after.focus.Uncrossed

/-- No status has changed. -/
def Store.Steady (before after : Store) : Prop :=
  ∀ id, before.Has id → after.status id = before.status id

/-- Where no status has changed, only what comes up has to be looked at. -/
theorem Store.Steady.regular {before after : Store} (steady : Store.Steady before after) {world : W}
    {focus : Focus} {pending : List Pending} (uncrossed : focus.Uncrossed) :
    Regular before ⟨after, world, focus, pending⟩ :=
  ⟨fun id known => .inl (steady id known), uncrossed⟩

/-- Changes that no status notices may come before a regular one: a status changes at most once. -/
theorem Store.Steady.then {before middle : Store} {after : Machine W}
    (steady : Store.Steady before middle) (lasts : Store.Lasts before middle)
    (regular : Regular middle after) : Regular before after := by
  refine ⟨fun id known => ?_, regular.uncrossed⟩
  rw [← steady id known]
  exact regular.statuses id (lasts.has known)

/-! ### Changes that no status notices -/

section

variable {store after : Store} {id : CoroutineId}

/-- Statuses lie on the coroutines, so they are the same if these are. -/
theorem steady_same (same : after.coroutines = store.coroutines) : Store.Steady store after :=
  fun other _ => congrArg Coroutine.status (Store.coroutine_congr same other)

/-- Nothing but the coroutines of the store that is reached matters. -/
theorem Store.Steady.congr {middle : Store} (steady : Store.Steady store middle)
    (same : after.coroutines = middle.coroutines) : Store.Steady store after := by
  intro other known
  rw [← steady other known]
  exact congrArg Coroutine.status (Store.coroutine_congr same other)

/-- A change that keeps the status of its coroutine changes none. -/
theorem steady_modify (store : Store) (id : CoroutineId) {change : Coroutine → Coroutine}
    (kept : ∀ coroutine, (change coroutine).status = coroutine.status) :
    Store.Steady store (store.modifyCoroutine id change) :=
  fun other _ => Store.read_modifyCoroutine Coroutine.status kept store id other

/-- Work on a processor, the access to it and its guard are not seen in a status. -/
theorem steady_processor (store : Store) (id : CoroutineId) (processor : Processor) :
    Store.Steady store (store.modifyCoroutine id ({ · with processor := processor })) :=
  steady_modify store id fun _ => rfl

/-- Taking a processor and giving it back leave its status alone. -/
theorem steady_setAccess (store : Store) (id : CoroutineId) (access : Access) :
    Store.Steady store (store.setAccess id access) := steady_modify store id fun _ => rfl

/-- So do entering and leaving its guard. -/
theorem steady_setGuard (store : Store) (id : CoroutineId) (guard : ThreadGuard) :
    Store.Steady store (store.setGuard id guard) := steady_modify store id fun _ => rfl

/-- An instruction leaves the handles of all coroutines as they were. -/
theorem steady_touched {relation : Processor → Processor → Prop}
    (touches : Store.Touches id relation store after) : Store.Steady store after := by
  intro other known
  by_cases same : other = id
  · subst same
    obtain ⟨processor, became, _⟩ := touches.own
    rw [Store.status, became]
    rfl
  · obtain kept | ⟨unknown, _⟩ := touches.others other same
    · rw [Store.status, kept]
      rfl
    · exact absurd known unknown

/-- A new coroutine has a status, and no other one changes. -/
theorem steady_spawn (parent : CoroutineId) (function : Value) (store : Store) :
    Store.Steady store (Store.spawn parent function store).2 := by
  obtain unchanged | ⟨coroutine, _, created⟩ := Store.spawn_store parent function store
  · rw [unchanged]
    exact fun _ _ => rfl
  · rw [created]
    intro other known
    rw [Store.status, Store.coroutine_push_other (Nat.ne_of_lt known)]
    rfl

/-- The making of a coroutine fails for what the value is that it is made of, and not for a
guard. -/
theorem spawn_uncrossed (function : Value) (known : store.Has id) {error : ScriptError}
    (failed : (Store.spawn id function store).1 = .error error) : error.isCrossThread = false := by
  have spawns := Store.inside_spawn function store known
  exact error.uncrossed_of_own (spawns.of_error (Prod.ext failed rfl)).2

/-- No change by hand sets a status. What it can do to a coroutine concerns its guard and its
handle. -/
theorem steady_edit (change : Edit) : Store.Steady store (store.edit change) := by
  cases change with
  | hold id =>
    simp only [Store.edit, Store.hold]
    split
    · exact fun _ _ => rfl
    · exact steady_setAccess store id _
  | letGo id =>
    simp only [Store.edit, Store.letGo]
    split
    · exact steady_setAccess store id _
    · exact fun _ _ => rfl
  | enterGuard id thread =>
    simp only [Store.edit, Store.enterGuard]
    split
    · exact steady_setGuard store id _
    · exact fun _ _ => rfl
  | leaveGuard id => exact steady_setGuard store id _
  | _ => exact steady_same rfl

/-- Guards let the thread in as before, as long as they and the thread are the same. -/
theorem Store.Admitting.same (admitting : store.Admitting) (lasts : Store.Lasts store after)
    (guards : ∀ other, (after.processor other).guard = (store.processor other).guard) :
    after.Admitting := by
  intro other
  obtain ⟨guard, admitted⟩ := admitting other
  refine ⟨guard, ?_⟩
  rw [Store.passGuard, guards, lasts.thread]
  exact admitted

/-- A change that keeps the guard of its coroutine keeps them all. -/
theorem Store.Admitting.modify (admitting : store.Admitting) (id : CoroutineId)
    {change : Coroutine → Coroutine}
    (kept : ∀ coroutine, (change coroutine).processor.guard = coroutine.processor.guard) :
    (store.modifyCoroutine id change).Admitting :=
  admitting.same (Store.lasts_modifyCoroutine _ _ _)
    (Store.read_modifyCoroutine (fun coroutine => coroutine.processor.guard) kept store id)

/-- So does an instruction; a coroutine that it has created has a guard that is free. -/
theorem Store.Admitting.touched (admitting : store.Admitting)
    {relation : Processor → Processor → Prop} (touches : Store.Touches id relation store after)
    (kept : ∀ processor, relation (store.processor id) processor →
      processor.guard = (store.processor id).guard) : after.Admitting := by
  intro other
  by_cases same : other = id
  · subst same
    obtain ⟨guard, admitted⟩ := admitting other
    refine ⟨guard, ?_⟩
    rw [Store.passGuard, kept _ touches.processor, touches.thread]
    exact admitted
  · obtain same | ⟨_, _, parent, closure, newborn⟩ := touches.others other same
    · obtain ⟨guard, admitted⟩ := admitting other
      refine ⟨guard, ?_⟩
      rw [Store.passGuard, Store.processor, same, touches.thread]
      exact admitted
    · refine ⟨⟨some after.thread, 1⟩, ?_⟩
      rw [Store.passGuard, Store.processor, newborn]
      rfl

end

/-! ### Entries -/

section

variable {store : Store} {id : CoroutineId}

/-- The preparation of an entry fails with no refusal: the guard has let the thread in before it. -/
theorem uncrossed_focusAt {entered : Except ScriptError Nat}
    (uncrossed : ∀ error, entered = .error error → error.isCrossThread = false) :
    (Turn.focusAt id entered).Uncrossed := by
  cases entered with
  | ok pointer => trivial
  | error error => exact uncrossed error rfl

/-- A call that cannot be prepared fails for want of room or of a function. -/
theorem enterFromHost_own {chunk : Chunk} {callee : Option Value} {arguments : List Value}
    {before after : Processor} {entered : Except ScriptError Nat}
    (prepared : enterFromHost chunk callee arguments before = (entered, after))
    {error : ScriptError} (failed : entered = .error error) : error.isOwn = true := by
  subst failed
  exact ((enterFromHost_ends chunk callee arguments before).of_error prepared).2

/-- So does a resume, or there is nothing left to go on with. -/
theorem Processor.ResumeEntry.uncrossed {chunk : Chunk} {arguments : List Value}
    {before after : Processor} {entered : Except ScriptError Nat}
    (entry : ResumeEntry chunk arguments before entered after) (error : ScriptError)
    (failed : entered = .error error) : error.isCrossThread = false := by
  cases entry with
  | continues saved grows values => cases failed
  | overflows saved grows own =>
    cases failed
    exact error.uncrossed_of_own own
  | starts fresh closure prepared =>
    exact error.uncrossed_of_own (enterFromHost_own prepared failed)
  | spent fresh closure =>
    cases failed
    rfl

/-- A call changes no status, and while guards let their thread in it is not turned away by one. -/
theorem regular_call (admitting : store.Admitting) (known : store.Has id) (callee : Option Value)
    (arguments : List Value) (world : W) (outer : List Pending) :
    Regular store (Machine.enter (store.beginCall id callee arguments) world outer) := by
  obtain ⟨guard, admitted⟩ := admitting id
  cases prepared : enterFromHost store.chunk callee arguments
    { store.processor id with guard := guard, mayYield := false } with
  | mk entered processor =>
    have enters := enter_beginCall known admitted prepared world outer
    rw [enters]
    refine (steady_processor store id processor).regular (uncrossed_focusAt ?_)
    exact fun error failed => error.uncrossed_of_own (enterFromHost_own prepared failed)

/-- A resume changes no other status than that of its coroutine. -/
theorem beginResume_others (target : CoroutineId) (arguments : List Value) (store : Store)
    (world : W) (outer : List Pending) {other : CoroutineId} (different : other ≠ target) :
    (Machine.enter (store.beginResume target arguments) world outer).store.status other =
      store.status other := by
  obtain ⟨error, refuses⟩ | ⟨guard, admits⟩ := refuses_or_admits store target
  · rw [enter_beginResume_refused refuses]
  · rw [enter_beginResume admits rfl]
    exact congrArg Coroutine.status (Store.coroutine_modifyCoroutine_other different _)

/-- A resume that is turned away is not turned away by a guard, if guards let their thread in. -/
theorem Store.Refuses.uncrossed {target : CoroutineId} {error : ScriptError}
    (refuses : store.Refuses target error) (admitting : store.Admitting) :
    error.isCrossThread = false := by
  cases refuses with
  | foreign resumable free refused =>
    obtain ⟨guard, admitted⟩ := admitting target
    cases refused.symm.trans admitted
  | _ => rfl

/-- A resume that is let in sets its coroutine running, which is an edge, and one that is turned
away sets nothing. -/
theorem regular_resume (admitting : store.Admitting) (target : CoroutineId) (arguments : List Value)
    (world : W) (outer : List Pending) :
    Regular store (Machine.enter (store.beginResume target arguments) world outer) := by
  obtain ⟨error, refuses⟩ | ⟨guard, admits⟩ := refuses_or_admits store target
  · rw [enter_beginResume_refused refuses]
    exact ⟨fun _ _ => .inl rfl, refuses.uncrossed admitting⟩
  · cases prepared : enterFromResume store.chunk arguments
      { store.processor target with guard := guard } with
    | mk entered processor =>
      have enters := enter_beginResume admits prepared world outer
      rw [enters]
      refine ⟨fun other known => ?_, uncrossed_focusAt (resumeEntry_of_prepared prepared).uncrossed⟩
      by_cases same : other = target
      · subst same
        dsimp only
        rw [Store.status, Store.status, Store.coroutine_modifyCoroutine known]
        exact follows_running admits.resumable
      · left
        exact congrArg Coroutine.status (Store.coroutine_modifyCoroutine_other same _)

/-- The coroutine that resumes another one waits, and the other one starts or continues. These are
two coroutines: one that is running cannot be resumed. -/
theorem regular_childResume (admitting : store.Admitting) (known : store.Has id)
    (target : CoroutineId) (arguments : List Value) (world : W) (outer : List Pending) :
    Regular store (Machine.enter (store.beginChildResume id target arguments) world outer) := by
  rw [Store.beginChildResume]
  split
  next apart =>
    obtain ⟨running, different⟩ := apart
    rw [enter_andThen]
    have guards : (store.setStatus id .normal).Admitting :=
      admitting.modify id fun _ => rfl
    have regular := regular_resume guards target arguments world (.wake id :: outer)
    refine ⟨fun other knownOther => ?_, regular.uncrossed⟩
    by_cases same : other = id
    · subst same
      rw [beginResume_others target arguments _ world _ different, running, Store.status,
        Store.setStatus, Store.coroutine_modifyCoroutine known]
      exact .inr .waits
    · have kept : (store.setStatus id .normal).status other = store.status other :=
        congrArg Coroutine.status (Store.coroutine_modifyCoroutine_other same _)
      rw [← kept]
      exact regular.statuses other (by simpa [Store.setStatus] using knownOther)
  next => exact regular_resume admitting target arguments world outer

/-- The script's own processor is taken first, if it is free. If it is not, that is said by an error
of another kind. -/
theorem regular_borrowing (begin : Store → Turn) (world : W) (outer : List Pending)
    (enters : Regular (store.setAccess Store.main .executing)
      (Machine.enter (begin (store.setAccess Store.main .executing)) world
        (.release Store.main :: outer))) :
    Regular store (Machine.enter (Store.borrowing Store.main begin store) world outer) := by
  by_cases free : store.access Store.main = .free
  · rw [enter_borrowing free]
    exact (steady_setAccess store Store.main _).then (Store.lasts_modifyCoroutine _ _ _) enters
  · rw [Store.borrowing, if_pos free]
    exact ⟨fun _ _ => .inl rfl, rfl⟩

/-- A call through the script is a call on the processor that has been taken. -/
theorem regular_scriptCall (admitting : store.Admitting) (known : store.Has Store.main)
    (callee : Option Value) (arguments : List Value) (world : W) (outer : List Pending) :
    Regular store (Machine.enter
      (Store.borrowing Store.main (Store.beginCall Store.main callee arguments) store) world
        outer) := by
  have taken : (store.setAccess Store.main .executing).Admitting :=
    admitting.modify Store.main fun _ => rfl
  have still : (store.setAccess Store.main .executing).Has Store.main := by
    simpa [Store.setAccess] using known
  exact regular_borrowing _ world outer (regular_call taken still callee arguments world _)

end

/-! ### Steps and operations -/

section

variable {store : Store} {id : CoroutineId}

/-- An instruction changes no status, except by the resume that it asks for. What it does to its own
processor and to tables and cells is not seen in the status of anyone. -/
theorem regular_code {world : W} {pending : List Pending} (admitting : store.Admitting)
    (known : store.Has id) (pointer : Nat) :
    Regular store (Machine.stepCode id pointer store world pending) := by
  rw [Machine.stepCode]
  split
  next => exact ⟨fun _ _ => .inl rfl, rfl⟩
  next instruction _ =>
    have effects := Store.execute_effects instruction (pointer + 1) known
    split
    next error after reached =>
      obtain ⟨touches, own⟩ := effects.of_error reached
      exact (steady_touched touches).regular (error.uncrossed_of_own own)
    next next after reached => exact (steady_touched (effects.of_ok reached)).regular trivial
    next value after reached => exact (steady_touched (effects.of_ok reached)).regular trivial
    next value resumeAt after reached =>
      exact (steady_touched (effects.of_ok reached)).regular trivial
    next function arguments resumeAt after reached =>
      exact (steady_touched (effects.of_ok reached)).regular (uncrossed_untold rfl)
    next target arguments resumeAt after reached =>
      have touches := effects.of_ok reached
      refine (steady_touched touches).then touches.toLasts
        (regular_childResume (admitting.touched touches ?_)
          (touches.has known) target arguments world _)
      exact fun processor effect => (aligned_effect effect).guard

/-- One request of a host function that operates no guard and does not fail with the refusal of
one. -/
theorem regular_request {world : W} {pending : List Pending} (admitting : store.Admitting)
    (known : store.Has id) (main : store.Has Store.main) (request : Request)
    (spares : request.touchesGuard = false)
    (uncrossed : ∀ error, request.error? = some error → error.isCrossThread = false) :
    Regular store (Machine.stepRequest id request store world pending) := by
  cases request with
  | finish outcome =>
    refine ⟨fun _ _ => .inl rfl, ?_⟩
    cases outcome with
    | ok value => trivial
    | error error => exact uncrossed error rfl
  | call callee arguments => exact regular_call admitting known (some callee) arguments world _
  | resume target arguments => exact regular_childResume admitting known target arguments world _
  | create function =>
    have steady := steady_spawn id function store
    rw [Machine.stepRequest]
    cases spawned : Store.spawn id function store with
    | mk created after =>
      rw [spawned] at steady
      refine steady.regular fun error told => ?_
      cases created with
      | ok coroutine => cases told
      | error raised =>
        obtain rfl := Option.some.inj told
        exact spawn_uncrossed function known (congrArg Prod.fst spawned)
  | setGlobal name value => exact (steady_edit _).regular (uncrossed_untold rfl)
  | callScript callee arguments =>
    exact regular_scriptCall admitting main (some callee) arguments world _
  | resumeHandle target arguments => exact regular_resume admitting target arguments world _
  | enterGuard thread => cases spares
  | attach debugger => exact (steady_edit _).regular (uncrossed_untold rfl)
  | resetCounters => exact (steady_edit _).regular (uncrossed_untold rfl)
  | edit change => exact (steady_edit change).regular (uncrossed_untold rfl)

/-- A request that operates a guard, or by which a host function fails, changes no status. So
nothing has to be asked of the host for the step that carries it out. -/
theorem steady_request {world : W} {pending : List Pending} (request : Request)
    (apart : request.touchesGuard = true ∨ ∃ error, request.error? = some error) :
    Store.Steady store (Machine.stepRequest id request store world pending).store := by
  cases request with
  | finish outcome => exact fun _ _ => rfl
  | enterGuard thread =>
    simp only [Machine.stepRequest]
    split
    next guard _ => exact steady_setGuard store id guard
    next => exact fun _ _ => rfl
  | edit change => exact steady_edit change
  | _ => simp [Request.touchesGuard, Request.error?] at apart

/-- A result is pushed, or there is no room for it. -/
theorem regular_pushResult {world : W} {pending : List Pending} (resumeAt : Nat) (value : Value)
    (store : Store) : Regular store (Machine.pushResult id resumeAt value store world pending) := by
  obtain ⟨result, processor, _, own, pushes⟩ := Store.push_cases id value store
  have steady := steady_processor store id processor
  rw [Machine.pushResult, pushes]
  cases result with
  | ok done => exact steady.regular trivial
  | error error => exact steady.regular (error.uncrossed_of_own (own error rfl))

/-- Whoever waits with a mark puts it inside of all others. -/
theorem marks_of_mark {waiting : Pending} {mark : Mark} (marked : waiting.mark? id = some mark)
    (pending : List Pending) : marks id (waiting :: pending) = mark :: marks id pending := by
  rw [marks_cons, marked]
  rfl

/-- What the handle of a coroutine tells about those who wait on it. -/
theorem Machine.Sound.handle_of_marks {allowances : Allowances} {machine : Machine W}
    (sound : machine.Sound allowances) {marks : List Mark}
    (marked : CoroutineVM.marks id machine.pending = marks) :
    Shaped id marks ∧ (id ≠ Store.main → Agrees (machine.store.status id) marks) := by
  subst marked
  exact ⟨(sound.coroutines id).handled.shaped, (sound.coroutines id).handled.status⟩

/-- What an outcome leads to when it is handed to the one who waits for it. The end of a resume
leads away from running, and a coroutine that is woken has been normal; both are told by the
marks. -/
theorem regular_settled {allowances : Allowances} (host : Host W) {world : W} {outcome : Outcome}
    {waiting : Pending} {pending : List Pending}
    (sound : Machine.Sound allowances ⟨store, world, .settled outcome, waiting :: pending⟩)
    (uncrossed : ∀ error, outcome = .error error → error.isCrossThread = false) :
    Regular store (Machine.stepSettled host outcome waiting store world pending) := by
  have plain : (Focus.settled outcome).Uncrossed := by
    cases outcome with
    | ok exit => trivial
    | error error => exact uncrossed error rfl
  cases waiting with
  | hostFunction on resumeAt =>
    cases outcome with
    | ok exit => exact regular_pushResult resumeAt _ store
    | error error => exact ⟨fun _ _ => .inl rfl, plain⟩
  | resumeInstruction on resumeAt =>
    cases outcome with
    | ok exit => exact regular_pushResult resumeAt _ store
    | error error =>
      simp only [Machine.stepSettled]
      split
      · exact ⟨fun _ _ => .inl rfl, plain⟩
      · exact regular_pushResult resumeAt _ store
  | closeCall on valueHeight frameHeight mayYield stopwatch =>
    have known : store.Has on :=
      sound.orderly.known on (by simp [marks_cons, Pending.mark_closeCall])
    have sameGuard : (restore valueHeight frameHeight mayYield (store.processor on)).guard =
        (store.processor on).guard := rfl
    obtain ⟨coroutines, _⟩ := coroutines_closing host known sameGuard stopwatch world
    have kept : Store.Steady store (Machine.leaveGuard host on (Machine.stopWatch stopwatch
        (store.modifyProcessor on (restore valueHeight frameHeight mayYield))) world).1 := by
      refine Store.Steady.congr ?_ coroutines
      exact steady_modify store on fun _ => rfl
    refine ⟨fun other known => .inl (kept other known), ?_⟩
    cases outcome with
    | error error => exact plain
    | ok exit =>
      cases exit with
      | returned value => trivial
      | yielded value resumeAt => rfl
  | closeResume target before stopwatch =>
    have marked := Pending.mark_closeResume target before stopwatch
    have known : store.Has target := sound.orderly.known target (by simp [marks_cons, marked])
    obtain ⟨coroutines, _⟩ := coroutines_closeResume host known before stopwatch outcome world
    refine ⟨fun other _ => ?_, plain⟩
    have reads := congrArg Coroutine.status (Store.coroutine_congr coroutines other)
    change (store.status other).Follows
      ((Machine.closeResume host target before stopwatch outcome store world).1.coroutine
        other).status
    rw [reads]
    by_cases same : other = target
    · subst same
      obtain ⟨shaped, agrees⟩ := sound.handle_of_marks (marks_of_mark marked pending)
      have running : store.status other = .running := agrees shaped.1
      rw [running, Store.coroutine_modifyCoroutine known]
      exact follows_statusAfter before uncrossed
    · left
      exact congrArg Coroutine.status (Store.coroutine_modifyCoroutine_other same _)
  | wake on =>
    refine ⟨fun other known => ?_, plain⟩
    by_cases same : other = on
    · subst same
      obtain ⟨shaped, agrees⟩ :=
        sound.handle_of_marks (marks_of_mark (Pending.mark_wake other) pending)
      have normal : store.status other = .normal := agrees shaped.1
      have woken : (store.setStatus other .running).status other = .running :=
        congrArg Coroutine.status (Store.coroutine_modifyCoroutine known _)
      rw [normal, Machine.stepSettled, woken]
      exact .inr .wakes
    · left
      exact congrArg Coroutine.status (Store.coroutine_modifyCoroutine_other same _)
  | release on => exact (steady_setAccess store on .free).regular plain
  | hostCall on =>
    refine ⟨fun _ _ => .inl rfl,
      uncrossed_handed outcome (fun error told => ?_) uncrossed⟩
    cases outcome with
    | ok exit => cases told
    | error raised => exact congrArg Except.error (Option.some.inj told)
  | hostResume on =>
    refine ⟨fun _ _ => .inl rfl,
      uncrossed_handed outcome (fun error told => ?_) uncrossed⟩
    cases outcome with
    | ok exit => cases told
    | error raised => exact congrArg Except.error (Option.some.inj told)

end

/-- While guards are spared each of them belongs to the script's thread or to none. -/
theorem Machine.Sound.admitting {fromTop : Prop} {errors : ScriptError → Prop} {machine : Machine W}
    (sound : machine.Sound ⟨False, fromTop, errors⟩) : machine.store.Admitting := by
  intro id
  have guard : (machine.store.processor id).guard =
      nested .free machine.store.thread (depth (marks id machine.pending)) :=
    (sound.coroutines id).supplied.guard fun spared => spared
  rw [Store.passGuard, guard]
  cases depth (marks id machine.pending) with
  | zero => exact ⟨_, rfl⟩
  | succ levels => exact ⟨_, if_pos rfl⟩

/-- One step of a machine, whatever it stands at. Of the host only the request that is carried out
matters. -/
theorem regular_step {fromTop : Prop} {errors : ScriptError → Prop} {machine : Machine W}
    {host : Host W} (sound : machine.Sound ⟨False, fromTop, errors⟩)
    (spares : ∀ request, machine.request? host = some request → request.touchesGuard = false)
    (uncrossed : ∀ request error, machine.request? host = some request →
      request.error? = some error → error.isCrossThread = false)
    (plain : machine.focus.Uncrossed) : Regular machine.store (machine.step host) := by
  have admitting := sound.admitting
  obtain ⟨store, world, focus, pending⟩ := machine
  cases focus with
  | code id pointer =>
    have known : store.Has id :=
      sound.orderly.known id (driven_of_closing sound.orderly.suits).ne_nil
    exact regular_code admitting known pointer
  | host id event =>
    have known : store.Has id :=
      sound.orderly.known id (driven_of_function sound.orderly.suits).ne_nil
    exact regular_request admitting known sound.orderly.main _ (spares _ rfl) fun error =>
      uncrossed _ error rfl
  | settled outcome =>
    cases pending with
    | nil => exact ⟨fun _ _ => .inl rfl, plain⟩
    | cons waiting pending =>
      refine regular_settled host sound fun error failed => ?_
      subst failed
      exact plain

/-- A step changes statuses along the diagram whatever the host wants: with what is excluded for the
sake of later steps it changes none. -/
theorem follows_step {fromTop : Prop} {errors : ScriptError → Prop} {machine : Machine W}
    (host : Host W) (sound : machine.Sound ⟨False, fromTop, errors⟩)
    (plain : machine.focus.Uncrossed) (id : CoroutineId) (known : machine.store.Has id) :
    (machine.store.status id).Follows ((machine.step host).store.status id) := by
  by_cases apart : ∃ request, machine.request? host = some request ∧
      (request.touchesGuard = true ∨ ∃ error, request.error? = some error)
  · obtain ⟨request, wants, apart⟩ := apart
    obtain ⟨store, world, focus, pending⟩ := machine
    cases focus with
    | host on event =>
      obtain rfl := Option.some.inj wants
      exact .inl (steady_request _ apart id known)
    | code on pointer => cases wants
    | settled outcome => cases wants
  · refine (regular_step sound (fun request wants => ?_) (fun request error wants fails => ?_)
      plain).statuses id known
    · exact Bool.eq_false_iff.mpr fun touches => apart ⟨request, wants, .inl touches⟩
    · exact absurd ⟨request, wants, .inr ⟨error, fails⟩⟩ apart

/-- A push on the script's own stack is work on a processor. -/
theorem regular_push {store : Store} (value : Value) (world : W) (outer : List Pending) :
    Regular store (Machine.enter (Operation.pushMain value store) world outer) := by
  obtain ⟨result, processor, _, own, pushes⟩ := Store.push_cases Store.main value store
  rw [Operation.pushMain, pushes]
  refine (steady_processor store Store.main processor).regular ?_
  cases result with
  | ok done => trivial
  | error error => exact error.uncrossed_of_own (own error rfl)

/-- The beginning of an operation, of which only a resume and a call enter anything. A call concerns
the script's own processor, which has no status of its own. -/
theorem regular_begin {fromTop : Prop} {errors : ScriptError → Prop} {machine : Machine W}
    (sound : machine.Sound ⟨False, fromTop, errors⟩) (operation : Operation) (world : W) :
    Regular machine.store (Machine.enter (operation.begin machine.store) world []) := by
  have admitting := sound.admitting
  have main := sound.orderly.main
  cases operation with
  | call callee arguments =>
    exact regular_scriptCall admitting main (some callee) arguments world []
  | callTop arguments => exact regular_scriptCall admitting main none arguments world []
  | push value => exact regular_borrowing _ world [] (regular_push value world _)
  | resume target arguments => exact regular_resume admitting target arguments world []
  | create function =>
    have steady := steady_spawn Store.main function.collapse machine.store
    rw [Operation.begin, Store.createCoroutine]
    cases spawned : Store.spawn Store.main function.collapse machine.store with
    | mk created after =>
      rw [spawned] at steady
      refine steady.regular ?_
      cases created with
      | ok coroutine => trivial
      | error error => exact spawn_uncrossed function.collapse main (congrArg Prod.fst spawned)
  | edit change => exact (steady_edit change).regular trivial

end CoroutineVM
