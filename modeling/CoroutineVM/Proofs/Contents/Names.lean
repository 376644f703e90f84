import CoroutineVM.Proofs.Chunk.Validity
import CoroutineVM.Proofs.Contents.Machines
import CoroutineVM.Proofs.Store.Instructions

/-!
# Chunks that have been accepted

A chunk is checked once, when it is loaded, and nothing that its code names is checked again in
time: a function that is missing shows when it is called, and a place outside of the code when
control gets there. For a chunk that has been accepted neither happens, provided that the closures
that the host supplies name functions of the chunk. The one place outside of the code that control
can get to is the one right behind it, and it gets there by running past the last instruction.
-/

namespace CoroutineVM

open Processor

/-- The entry points, the jumps and the functions of closures lie inside a chunk. -/
structure Chunk.Valid (chunk : Chunk) : Prop where
  entries : ∀ index function, chunk.function? index = some function →
    function.entryPoint < chunk.code.size
  jumps : ∀ place instruction target, chunk.instruction? place = some instruction →
    instruction.jumpTarget? = some target → target < chunk.code.size
  closures : ∀ place function captures,
    chunk.instruction? place = some (.makeClosure function captures) →
      function < chunk.functions.size

/-- The functions that the closures in a value name are there. -/
def Value.Names (chunk : Chunk) (value : Value) : Prop :=
  ∀ closure, value.Contains closure → closure.function < chunk.functions.size

/-- An error about a missing function that a host function fails with is one that a host function
has been told before. -/
def Stage.Honest {W : Type} (host : Host W) (trace : List (Stage W)) : Prop :=
  ∀ later stage earlier, trace = later ++ stage :: earlier → ∀ function,
    stage.error? host = some (.undefinedFunction function) →
      ∃ other ∈ stage :: earlier, other.told? = some (.undefinedFunction function)

/-! ### What the check finds -/

/-- What the check lets pass is valid. -/
theorem valid_of_validate {chunk : Chunk} (accepted : chunk.validate = .ok ()) : chunk.Valid := by
  have wellFormed : chunk.WellFormed := Chunk.validate_eq_ok_iff.mp accepted
  refine ⟨?_, ?_, ?_⟩
  · intro index function defined
    exact wellFormed.entries function (Array.mem_of_getElem? defined)
  · intro place instruction target fetched jumps
    have member : instruction ∈ chunk.code := Array.mem_of_getElem? fetched
    cases instruction <;> cases jumps
    · exact wellFormed.jumps target member
    · exact wellFormed.branches target member
  · intro place function captures fetched
    exact wellFormed.closures function captures (Array.mem_of_getElem? fetched)

/-- A function of an accepted chunk begins within the code. -/
theorem Chunk.Valid.entry {chunk : Chunk} (valid : chunk.Valid) {pointer : Nat}
    (enters : chunk.Enters pointer) : pointer < chunk.code.size := by
  obtain ⟨index, function, defined, rfl⟩ := enters
  exact valid.entries index function defined

/-- What follows an instruction is not beyond the end of the code. -/
theorem Chunk.Follows.within {chunk : Chunk} {kind : Instruction → Bool} {pointer : Nat}
    (follows : chunk.Follows kind pointer) : pointer ≤ chunk.code.size := by
  obtain ⟨place, instruction, fetched, _, rfl⟩ := follows
  exact (Array.getElem?_eq_some_iff.mp fetched).1

/-- Every place that code can get to is within the code or right behind it. Functions and jumps lead
inside; only the place behind an instruction can be the end. -/
theorem Chunk.Valid.within {chunk : Chunk} (valid : chunk.Valid) {pointer : Nat}
    (reaches : chunk.Reaches pointer) : pointer ≤ chunk.code.size := by
  cases reaches with
  | enters enters => exact Nat.le_of_lt (valid.entry enters)
  | follows follows => exact follows.within
  | jumps fetched jumps => exact Nat.le_of_lt (valid.jumps _ _ _ fetched jumps)

/-- Inside the code there is an instruction to be fetched at every place. -/
theorem instruction_none_iff {chunk : Chunk} {pointer : Nat} (within : pointer ≤ chunk.code.size) :
    chunk.instruction? pointer = none ↔ pointer = chunk.code.size := by
  rw [Chunk.instruction?, Array.getElem?_eq_none_iff]
  omega

/-! ### The regime of a chunk -/

/-- There are no other closures than those of functions that the chunk defines, and no error is
about a missing one. -/
def Regime.ofChunk (chunk : Chunk) : Regime where
  chunk := chunk
  closure := fun made => made.function < chunk.functions.size
  raised := fun error => ∀ function, error ≠ .undefinedFunction function
  single := False
  flat := False
  single_of_flat := id
  raises := fun _ other => other
  misses := by
    intro made inside missing
    rw [Chunk.function?, Array.getElem?_eq_none_iff] at missing
    omega

/-- The pointers of a machine, wherever they are kept, are not beyond the end of the code. -/
structure Machine.Within {W : Type} (chunk : Chunk) (machine : Machine W) : Prop where
  code : ∀ id pointer, machine.focus = .code id pointer → pointer ≤ chunk.code.size
  yielded : ∀ value resumeAt, machine.focus = .settled (.ok (.yielded value resumeAt)) →
    resumeAt ≤ chunk.code.size
  function : ∀ id resumeAt, Pending.hostFunction id resumeAt ∈ machine.pending →
    resumeAt ≤ chunk.code.size
  resume : ∀ id resumeAt, Pending.resumeInstruction id resumeAt ∈ machine.pending →
    resumeAt ≤ chunk.code.size
  entries : ∀ id, ∀ frame ∈ (machine.store.processor id).frames.toList,
    frame.entryPoint < chunk.code.size
  returns : ∀ id, ∀ frame ∈ (machine.store.processor id).frames.toList, ∀ pointer,
    frame.returnPoint = .instruction pointer → pointer ≤ chunk.code.size
  saved : ∀ id pointer, (machine.store.processor id).savedPointer = some pointer →
    pointer ≤ chunk.code.size

variable {W : Type} {host : Host W} {chunk : Chunk}

/-- So a machine whose places are all ones that code can get to never looks further than the end, be
it for what it does next or for what those who wait go on at. -/
theorem Chunk.Valid.machine (valid : chunk.Valid) {machine : Machine W}
    (obeys : machine.Obeys (.ofChunk chunk)) : machine.Within chunk where
  code := fun id pointer coding => by
    have reaches := obeys.focus
    rw [coding] at reaches
    exact valid.within reaches
  yielded := fun value resumeAt settled => by
    have stops := obeys.focus
    rw [settled] at stops
    exact stops.2.within
  function := fun id resumeAt member => (obeys.pending _ member).within
  resume := fun id resumeAt member => (obeys.pending _ member).within
  entries := fun id frame member =>
    valid.entry ((obeys.store.processors id).frames frame member).enters
  returns := fun id frame member pointer returns =>
    (((obeys.store.processors id).frames frame member).returns pointer returns).within
  saved := fun id pointer saved => ((obeys.store.processors id).saved pointer saved).within

/-! ### Past the last instruction -/

/-- How control gets behind the last instruction from a machine: straight on, when a host function
that was called there has returned or a resume that was made there has been reported, on return to a
call there, or on resume after a yield there. -/
inductive RunsPast (chunk : Chunk) (id : CoroutineId) (before : Machine W) : Prop where
  | onward {pointer : Nat} (coding : before.focus = .code id pointer)
      (last : pointer + 1 = chunk.code.size)
  | answered (waiting : before.pending.head? = some (.hostFunction id chunk.code.size))
      (last : chunk.Follows Instruction.isCall chunk.code.size)
  | reported (waiting : before.pending.head? = some (.resumeInstruction id chunk.code.size))
      (last : chunk.Follows Instruction.isResume chunk.code.size)
  | returned {pointer : Nat} {instruction : Instruction} {frame : Frame}
      (coding : before.focus = .code id pointer)
      (fetched : chunk.instruction? pointer = some instruction)
      (leaves : instruction.isReturn = true)
      (top : (before.store.processor id).frames.top? = some frame)
      (returns : frame.returnPoint = .instruction chunk.code.size)
      (last : chunk.Follows Instruction.isCall chunk.code.size)
  | resumed (saved : (before.store.processor id).savedPointer = some chunk.code.size)
      (last : chunk.Follows Instruction.isYield chunk.code.size)

/-- Where a resume of a coroutine can lead. -/
def Store.Resumes (store : Store) (chunk : Chunk) (focus : Focus) : Prop :=
  ∀ id pointer, focus = .code id pointer →
    (store.processor id).savedPointer = some pointer ∨ chunk.Enters pointer

/-- A machine that stands in code after an entry stands at the place that was found for it. -/
theorem pointer_of_focusAt {id on : CoroutineId} {entered : Except ScriptError Nat} {pointer : Nat}
    (coding : Turn.focusAt id entered = .code on pointer) : entered = .ok pointer ∧ id = on := by
  cases entered with
  | ok found =>
    cases coding
    exact ⟨rfl, rfl⟩
  | error error => cases coding

/-- The place that the host enters a closure at is the beginning of a function. -/
theorem enters_of_enterFromHost {callee : Option Value} {arguments : List Value}
    {before : Processor} {pointer : Nat}
    (entered : (enterFromHost chunk callee arguments before).1 = .ok pointer) :
    chunk.Enters pointer := by
  obtain ⟨_, _, frame, _, opened, _, rfl⟩ :=
    (enterFromHost_ends chunk callee arguments before).of_ok (Prod.ext entered rfl)
  exact Chunk.enters_of_entryPoint opened.entryPoint

/-- A resume goes on at the saved place or begins where a function does. -/
theorem Processor.ResumeEntry.goes {arguments : List Value} {before after : Processor}
    {pointer : Nat} (entry : ResumeEntry chunk arguments before (.ok pointer) after) :
    before.savedPointer = some pointer ∨ chunk.Enters pointer := by
  cases entry with
  | continues saved grows values => exact .inl saved
  | starts fresh entry prepared => exact .inr (enters_of_enterFromHost (congrArg Prod.fst prepared))

/-- A call begins where a function does. -/
theorem enters_of_beginCall {store : Store} {id on : CoroutineId} {callee : Option Value}
    {arguments : List Value} {pointer : Nat}
    (coding : (store.beginCall id callee arguments).focus = .code on pointer) :
    store.chunk.Enters pointer := by
  unfold Store.beginCall at coding
  split at coding
  · cases coding
  · have entered := (pointer_of_focusAt coding).1
    rw [Store.onProcessor_eq] at entered
    exact enters_of_enterFromHost entered

/-- It makes no difference that the script's own processor has to be borrowed for the call. -/
theorem enters_of_borrowed {store : Store} {on : CoroutineId} {callee : Option Value}
    {arguments : List Value} {pointer : Nat}
    (coding :
      (Store.borrowing Store.main (Store.beginCall Store.main callee arguments) store).focus =
      .code on pointer) : store.chunk.Enters pointer := by
  unfold Store.borrowing at coding
  split at coding
  · cases coding
  · have enters := enters_of_beginCall coding
    exact enters

/-- The place that a coroutine is to go on at stays as long as nobody changes it, whatever else is
done to that coroutine or another one. -/
theorem savedPointer_modify (store : Store) (id other : CoroutineId)
    {change : Coroutine → Coroutine}
    (kept :
      ∀ coroutine, (change coroutine).processor.savedPointer = coroutine.processor.savedPointer) :
    ((store.modifyCoroutine id change).processor other).savedPointer =
      (store.processor other).savedPointer :=
  Store.read_modifyCoroutine (fun coroutine => coroutine.processor.savedPointer) kept store id other

/-- A status is no place to go on at. -/
@[simp]
theorem savedPointer_setStatus (store : Store) (id other : CoroutineId) (status : CoroutineStatus) :
    ((store.setStatus id status).processor other).savedPointer =
      (store.processor other).savedPointer := savedPointer_modify store id other fun _ => rfl

/-- Nor is an access. -/
@[simp]
theorem savedPointer_setAccess (store : Store) (id other : CoroutineId) (access : Access) :
    ((store.setAccess id access).processor other).savedPointer =
      (store.processor other).savedPointer := savedPointer_modify store id other fun _ => rfl

/-- Nor is a guard. -/
@[simp]
theorem savedPointer_setGuard (store : Store) (id other : CoroutineId) (guard : ThreadGuard) :
    ((store.setGuard id guard).processor other).savedPointer =
      (store.processor other).savedPointer := savedPointer_modify store id other fun _ => rfl

/-- A resume that comes to code goes on at the saved place or enters a function. -/
theorem resumes_of_beginResume (store : Store) (target : CoroutineId) (arguments : List Value) :
    store.Resumes store.chunk (store.beginResume target arguments).focus := by
  intro id pointer coding
  unfold Store.beginResume at coding
  dsimp only at coding
  split at coding
  · cases coding
  split at coding
  · cases coding
  split at coding
  · cases coding
  split at coding
  · cases coding
  next guard admitted =>
    obtain ⟨entered, rfl⟩ := pointer_of_focusAt coding
    rw [Store.onProcessor_eq] at entered
    simpa using (resumeEntry_of_prepared (Prod.ext entered rfl)).goes

/-- A resume by a running coroutine does the same, since that the resumer becomes Normal moves no
place. -/
theorem resumes_of_beginChildResume (store : Store) (id target : CoroutineId)
    (arguments : List Value) :
    store.Resumes store.chunk (store.beginChildResume id target arguments).focus := by
  unfold Store.beginChildResume
  split
  · intro on pointer coding
    have resumes :=
      resumes_of_beginResume (store.setStatus id .normal) target arguments on pointer coding
    rwa [savedPointer_setStatus] at resumes
  · exact resumes_of_beginResume store target arguments

/-- A closure that the code makes names a function of the chunk, because the check has looked at the
instruction. -/
theorem Regime.made_ofChunk (valid : chunk.Valid) {machine : Machine W}
    (obeys : machine.Obeys (.ofChunk chunk)) {making : Making}
    (makes : machine.making? = some making) : (Regime.ofChunk chunk).closure making.made := by
  rw [Machine.making?] at makes
  split at makes
  next id pointer coding =>
    split at makes
    next function captures fetched =>
      split at makes
      next cells after captured =>
        cases makes
        rw [obeys.store.chunk] at fetched
        exact valid.closures pointer function captures fetched
      next => cases makes
    next => cases makes
  next => cases makes

section

variable {store : Store} {world : W} {pending : List Pending} {id on : CoroutineId}

/-- A resume gets past the end only by going on at a place behind a yield; a function begins before
it. -/
theorem RunsPast.of_resume (valid : chunk.Valid) {before : Machine W}
    (obeys : before.store.Obeys (.ofChunk chunk)) {focus : Focus}
    (resumes : before.store.Resumes chunk focus) (past : focus = .code id chunk.code.size) :
    RunsPast chunk id before := by
  obtain saved | enters := resumes id chunk.code.size past
  · exact .resumed saved ((obeys.processors id).saved _ saved)
  · exact absurd (valid.entry enters) (Nat.lt_irrefl _)

/-- A return goes to the place that the top frame has kept. -/
theorem top_of_leaveFrame (known : store.Has id) {count pointer : Nat} {after : Store}
    (run : Store.leaveFrame id count store = (.ok (.goto pointer), after)) :
    ∃ frame, (store.processor id).frames.top? = some frame ∧
      frame.returnPoint = .instruction pointer := by
  obtain ⟨_, _, returns⟩ := ((Store.leaveFrame_returns count known).of_ok run).own
  cases returns with
  | code popped framed dropped returns =>
    have keeps := (inWindow_popResult count _).of_ok popped
    exact ⟨_, keeps.frames ▸ framed.top, returns⟩

/-- A resume that code makes goes on from what was saved before, because the instruction itself has
changed no saved place. -/
theorem Store.Touches.resumes {after : Store} (touches : Store.Touches id Keeps store after)
    {focus : Focus} (resumes : after.Resumes chunk focus) : store.Resumes chunk focus := by
  intro other pointer coding
  refine (resumes other pointer coding).imp_left fun saved => ?_
  by_cases same : other = id
  · subst same
    rw [← touches.processor.savedPointer]
    exact saved
  · obtain same | ⟨_, _, parent, closure, newborn⟩ := touches.others other same
    · rw [Store.processor, same] at saved
      exact saved
    · rw [Store.processor, newborn] at saved
      cases saved

/-- Code gets past the end by its last instruction, by a return to behind a call that is the last
one, or by a resume of a coroutine that has yielded with the last one. All other ways lead to the
beginning of a function or to the target of a jump. -/
theorem runsPast_code (valid : chunk.Valid) {pointer : Nat} (known : store.Has on)
    (obeys : Machine.Obeys (.ofChunk chunk) (⟨store, world, .code on pointer, pending⟩ : Machine W))
    (past : (Machine.stepCode on pointer store world pending).focus = .code id chunk.code.size) :
    RunsPast chunk id (⟨store, world, .code on pointer, pending⟩ : Machine W) := by
  unfold Machine.stepCode at past
  split at past
  · cases past
  next instruction fetched =>
    have here := fetched
    rw [obeys.store.chunk] at here
    have makes : ∀ making, Machine.making? _ = some making → _ :=
      fun making => Regime.made_ofChunk valid obeys
    have ends := obeys.store.carriesOut fetched (fun flat => flat.elim) makes
    have effects := Store.execute_effects instruction (pointer + 1) known
    rw [Attempt.Ends] at ends
    split at ends
    next flow after run =>
      rw [run] at past
      have touches := effects.of_ok run
      obtain ⟨shape, kept⟩ := ends
      cases shape with
      | onward =>
        obtain ⟨rfl, last⟩ := Focus.code.inj past
        exact .onward rfl last
      | jumps jumps =>
        cases past
        exact absurd (valid.jumps _ _ _ here jumps) (Nat.lt_irrefl _)
      | enters enters =>
        cases past
        exact absurd (valid.entry enters) (Nat.lt_irrefl _)
      | returns leaves follows =>
        cases past
        cases instruction <;> cases leaves
        obtain ⟨frame, top, returns⟩ := top_of_leaveFrame known run
        exact .returned rfl here rfl top returns follows
      | returned carried => cases past
      | yielded stops carried => cases past
      | callsHost calls given => cases past
      | @resumes target arguments resumes given =>
        have leads := resumes_of_beginChildResume after on target arguments
        rw [kept.chunk] at leads
        have before := (touches.mono fun _ _ effect => effect.keepsOfResume).resumes leads
        exact .of_resume valid obeys.store before past
    next error after run =>
      rw [run] at past
      cases past

/-- Neither a call nor anything else that a host function wants leads behind the code, except a
resume. -/
theorem runsPast_request (valid : chunk.Valid) {event : HostEvent} {later : W} {request : Request}
    (obeys : store.Obeys (.ofChunk chunk))
    (past : (Machine.stepRequest on request store later pending).focus = .code id chunk.code.size) :
    RunsPast chunk id (⟨store, world, .host on event, pending⟩ : Machine W) := by
  have same : store.chunk = chunk := obeys.chunk
  have inside : ∀ {pointer}, store.chunk.Enters pointer → pointer < chunk.code.size :=
    fun enters => valid.entry (same ▸ enters)
  have resume : ∀ {focus}, store.Resumes store.chunk focus → focus = .code id chunk.code.size →
      RunsPast chunk id (⟨store, world, .host on event, pending⟩ : Machine W) :=
    fun resumes leads => .of_resume valid obeys (same ▸ resumes) leads
  cases request with
  | call callee arguments => exact absurd (inside (enters_of_beginCall past)) (Nat.lt_irrefl _)
  | resume target arguments =>
    exact resume (resumes_of_beginChildResume store on target arguments) past
  | callScript callee arguments => exact absurd (inside (enters_of_borrowed past)) (Nat.lt_irrefl _)
  | resumeHandle target arguments =>
    exact resume (resumes_of_beginResume store target arguments) past
  | create function =>
    rw [Machine.stepRequest] at past
    split at past
    cases past
  | enterGuard thread =>
    rw [Machine.stepRequest] at past
    split at past <;> cases past
  | _ => cases past

/-- An outcome gets past the end only if whoever waits for it is to go on there, which is behind a
call or a resume. -/
theorem runsPast_settled {outcome : Outcome} {waiting : Pending}
    (awaits : waiting.Obeys (.ofChunk chunk))
    (past : (Machine.stepSettled host outcome waiting store world pending).focus =
      .code id chunk.code.size) :
    RunsPast chunk id (⟨store, world, .settled outcome, waiting :: pending⟩ : Machine W) := by
  have pushed :
      ∀ {on resumeAt value}, (Machine.pushResult on resumeAt value store world pending).focus =
      .code id chunk.code.size → on = id ∧ resumeAt = chunk.code.size := by
    intro on resumeAt value past
    rw [Machine.pushResult] at past
    split at past
    · exact Focus.code.inj past
    · cases past
  cases waiting with
  | hostFunction on resumeAt =>
    cases outcome with
    | ok exit =>
      obtain ⟨rfl, rfl⟩ := pushed past
      exact .answered rfl awaits
    | error error => cases past
  | resumeInstruction on resumeAt =>
    simp only [Machine.stepSettled] at past
    split at past
    · split at past
      · cases past
      · obtain ⟨rfl, rfl⟩ := pushed past
        exact .reported rfl awaits
    · obtain ⟨rfl, rfl⟩ := pushed past
      exact .reported rfl awaits
  | _ => cases past

end

/-- Control gets behind the code from a machine only where an instruction is the last one. The cases
are what a machine can stand at. -/
theorem runsPast_step (valid : chunk.Valid) {machine : Machine W} {id : CoroutineId}
    {allowances : Allowances} (sound : machine.Sound allowances)
    (obeys : machine.Obeys (.ofChunk chunk))
    (past : (machine.step host).focus = .code id chunk.code.size) : RunsPast chunk id machine := by
  obtain ⟨store, world, focus, pending⟩ := machine
  cases focus with
  | code on pointer => exact runsPast_code valid (sound.known rfl) obeys past
  | host on event => exact runsPast_request valid obeys.store past
  | settled outcome =>
    cases pending with
    | nil => cases past
    | cons waiting pending => exact runsPast_settled (obeys.pending waiting List.mem_cons_self) past

/-- An operation gets past the end only by a resume, since calls begin with a function. -/
theorem runsPast_begin (valid : chunk.Valid) {machine : Machine W} {id : CoroutineId}
    (obeys : machine.store.Obeys (.ofChunk chunk)) {operation : Operation} {world : W}
    (past : (Machine.enter (operation.begin machine.store) world []).focus =
      .code id chunk.code.size) : RunsPast chunk id machine := by
  have same : machine.store.chunk = chunk := obeys.chunk
  have inside : ∀ {pointer}, machine.store.chunk.Enters pointer → pointer < chunk.code.size :=
    fun enters => valid.entry (same ▸ enters)
  cases operation with
  | call callee arguments => exact absurd (inside (enters_of_borrowed past)) (Nat.lt_irrefl _)
  | callTop arguments => exact absurd (inside (enters_of_borrowed past)) (Nat.lt_irrefl _)
  | push value =>
    simp only [Machine.enter, Operation.begin, Store.borrowing, Operation.pushMain] at past
    split at past <;> cases past
  | resume target arguments =>
    exact .of_resume valid obeys (same ▸ resumes_of_beginResume machine.store target arguments) past
  | create function =>
    simp only [Machine.enter, Operation.begin] at past
    cases past
  | edit change => cases past

/-! ### Runs -/

/-- What the check of a chunk is good for. -/
structure Machine.Checked (chunk : Chunk) (machine : Machine W) (trace : List (Stage W)) :
    Prop where
  /-- No error is about a missing function. -/
  outcome : ∀ function, machine.focus ≠ .settled (.error (.undefinedFunction function))
  told : ∀ id event function, machine.focus = .host id event →
    event.error? ≠ some (.undefinedFunction function)
  within : machine.Within chunk
  /-- There is an instruction to be fetched everywhere but right behind the code. -/
  fetches : ∀ id pointer, machine.focus = .code id pointer →
    (machine.store.chunk.instruction? pointer = none ↔ pointer = chunk.code.size)
  /-- Control gets there by running past the last instruction. -/
  past : ∀ stage earlier id, trace = stage :: earlier → machine.focus = .code id chunk.code.size →
    RunsPast chunk id stage.before

/-- A chunk that has been accepted runs without an error about a missing function, and without one
about a place outside of the code unless control runs past the last instruction, whatever else
happens: as long as the closures in the values that the host supplies name functions of the chunk,
and host functions do not make up such errors. -/
theorem accepted_chunk_runs {settings : Settings} {thread : ThreadId} {world : W}
    {trace : List (Stage W)} {machine : Machine W} (accepted : chunk.validate = .ok ())
    (traces : Machine.Traces host (.new (.initial chunk settings thread) world) trace machine)
    (named : ∀ stage ∈ trace, ∀ value ∈ stage.values host, value.Names chunk)
    (honest : Stage.Honest host trace) : machine.Checked chunk trace := by
  have valid := valid_of_validate accepted
  obtain ⟨obeys, others⟩ : machine.Obeys (.ofChunk chunk) ∧
      ∀ stage ∈ trace, stage.before.Obeys (.ofChunk chunk) := by
    refine Machine.Traces.obeys traces ?_ (fun flat => flat.elim)
      fun stage _ obeys making => Regime.made_ofChunk valid obeys
    intro later stage earlier split before
    have allowed := named stage (split ▸ List.mem_append_right later List.mem_cons_self)
    refine ⟨allowed, fun value placed => ?_, fun value cell => ?_, ?_⟩
    · exact ⟨allowed value (stage.mem_of_placed placed), fun flat => flat.elim⟩
    · exact ⟨allowed value (stage.mem_of_cell cell), fun single => single.elim⟩
    · rintro error fails function rfl
      obtain ⟨other, member, told⟩ := honest later stage earlier split function fails
      exact (before other member).told told function rfl
  refine ⟨?_, ?_, valid.machine obeys, ?_, ?_⟩
  · intro function settled
    have raised := obeys.focus
    rw [settled] at raised
    exact raised function rfl
  · intro id event function hosts error
    have told := obeys.focus
    rw [hosts] at told
    exact told.error _ error function rfl
  · intro id pointer coding
    rw [obeys.store.chunk]
    exact instruction_none_iff ((valid.machine obeys).code id pointer coding)
  · rintro stage earlier id rfl past
    cases traces with
    | begins operation world traces rests =>
      exact runsPast_begin valid (others _ List.mem_cons_self).store past
    | steps traces =>
      have sound := (reachable_sound (guardsAllowed host _) ⟨world, traces.leads⟩).1
      exact runsPast_step valid sound (others _ List.mem_cons_self) past

/-- A chunk that is accepted although its code does not end with a return. -/
def openChunk : Chunk := ⟨#[⟨"main", 0, 0, false⟩], #[.nop]⟩

/-- The main body of the chunk above runs past the one instruction that it has. The chunk has been
accepted all the same, which is why the error about the place cannot be excluded altogether. -/
theorem open_chunk_runs_past :
    let start := Machine.new (Store.sample openChunk) ()
    let entered := Machine.enter ((Operation.call .mainBody []).begin start.store) () []
    let trace := [.steps entered, .begins start (.call .mainBody [])]
    let last := entered.step Host.silent
    openChunk.validate = .ok () ∧ Machine.Traces Host.silent start trace last ∧
      last.Checked openChunk trace ∧ last.focus = .code Store.main 1 ∧
      RunsPast openChunk Store.main entered := by
  intro start entered trace last
  have accepted : openChunk.validate = .ok () := by decide +kernel
  have traces : Machine.Traces Host.silent start trace last :=
    (Machine.Traces.stays.begins (.call .mainBody []) () rfl).steps
  have checked : last.Checked openChunk trace := by
    refine accepted_chunk_runs accepted traces ?_ ?_
    · intro stage member value supplied closure inside
      obtain rfl | member := List.mem_cons.mp member
      · cases supplied
      · obtain rfl := List.mem_singleton.mp member
        obtain rfl := List.mem_singleton.mp supplied
        cases inside
        exact Nat.zero_lt_one
    · intro later stage earlier split function fails
      have member : stage ∈ trace := split ▸ List.mem_append_right later List.mem_cons_self
      obtain rfl | member := List.mem_cons.mp member
      · cases fails
      · obtain rfl := List.mem_singleton.mp member
        cases fails
  exact ⟨accepted, traces, checked, rfl, checked.past _ _ Store.main rfl rfl⟩

end CoroutineVM
