import CoroutineVM.Proofs.Contents.Instructions
import CoroutineVM.Proofs.Machine.Traces

/-!
# What a run may bring into a machine

A machine obeys a regime when its store does, what it is about to hand on is within the regime, and
the places that it and those who wait are to go on at are ones that the code can reach. As long as
the host supplies nothing from outside of a regime, steps and operations uphold it, with the two
exceptions that single instructions have.
-/

namespace CoroutineVM

open Processor

variable {W : Type} {host : Host W} {regime : Regime}

/-- Code can get to this place: a function begins here, an instruction is the one before, or one
jumps here. -/
inductive Chunk.Reaches (chunk : Chunk) (pointer : Nat) : Prop where
  | enters (enters : chunk.Enters pointer) : Reaches chunk pointer
  | follows {kind : Instruction → Bool} (follows : chunk.Follows kind pointer) :
      Reaches chunk pointer
  | jumps {place : Nat} {instruction : Instruction}
      (fetched : chunk.instruction? place = some instruction)
      (jumps : instruction.jumpTarget? = some pointer) : Reaches chunk pointer

/-- The place behind any instruction is one that code can get to. -/
theorem Chunk.Reaches.next {chunk : Chunk} {place : Nat} {instruction : Instruction}
    (fetched : chunk.instruction? place = some instruction) : chunk.Reaches (place + 1) :=
  have follows : chunk.Follows (fun _ => true) (place + 1) :=
    ⟨place, instruction, fetched, rfl, rfl⟩
  .follows follows

/-- What a host function is told is within the regime. -/
structure HostEvent.Obeys (regime : Regime) (event : HostEvent) : Prop where
  values : ∀ value ∈ event.values, regime.Carried value
  error : ∀ error, event.error? = some error → regime.raised error

/-- An event that tells neither a value nor an error brings nothing along. -/
theorem HostEvent.obeys_silent {event : HostEvent} (values : event.values = [])
    (error : event.error? = none) : event.Obeys regime :=
  ⟨fun value member => by simp [values] at member, fun _ told => by simp [error] at told⟩

/-- One that tells an error brings that error only. -/
theorem HostEvent.obeys_failed {event : HostEvent} {error : ScriptError}
    (values : event.values = []) (told : event.error? = some error)
    (allowed : regime.raised error) : event.Obeys regime := by
  refine ⟨fun value member => by simp [values] at member, fun other same => ?_⟩
  exact Option.some.inj (told.symm.trans same) ▸ allowed

/-- One that gives a value brings that value only. -/
theorem HostEvent.obeys_given {event : HostEvent} {value : Value} (values : event.values = [value])
    (error : event.error? = none) (carried : regime.Carried value) : event.Obeys regime := by
  refine ⟨?_, fun _ told => by simp [error] at told⟩
  rw [values]
  exact List.forall_mem_singleton.mpr carried

/-- The outcome is within the regime, and a coroutine that has yielded goes on after its yield. -/
def Outcome.Obeys (regime : Regime) : Outcome → Prop
  | .ok (.returned value) => regime.Carried value
  | .ok (.yielded value resumeAt) =>
    regime.Carried value ∧ regime.chunk.Follows Instruction.isYield resumeAt
  | .error error => regime.raised error

/-- What is done next is within the regime: code goes on at a place that it can get to, and what is
told to the host or handed on is admitted. -/
def Focus.Obeys (regime : Regime) : Focus → Prop
  | .code _ pointer => regime.chunk.Reaches pointer
  | .host _ event => event.Obeys regime
  | .settled outcome => outcome.Obeys regime

/-- Code goes on after the instruction that it waits for. -/
def Pending.Obeys (regime : Regime) : Pending → Prop
  | .hostFunction _ resumeAt => regime.chunk.Follows Instruction.isCall resumeAt
  | .resumeInstruction _ resumeAt => regime.chunk.Follows Instruction.isResume resumeAt
  | _ => True

/-- Nothing in the machine is outside of the regime. -/
structure Machine.Obeys (regime : Regime) (machine : Machine W) : Prop where
  store : machine.store.Obeys regime
  focus : machine.focus.Obeys regime
  pending : ∀ waiting ∈ machine.pending, waiting.Obeys regime

/-- What a host function wants is within the regime. -/
structure Request.Obeys (regime : Regime) (request : Request) : Prop where
  values : ∀ value ∈ request.values, regime.Allows value
  placed : ∀ value, request.placed? = some value → regime.Carried value
  cells : ∀ value, request.edit?.bind Edit.cellValue? = some value → regime.Kept value
  error : ∀ error, request.error? = some error → regime.raised error

/-- What the host supplies at a stage is within the regime. -/
structure Stage.Obeys (regime : Regime) (host : Host W) (stage : Stage W) : Prop where
  values : ∀ value ∈ stage.values host, regime.Allows value
  placed : ∀ value, stage.placed? host = some value → regime.Carried value
  cells : ∀ value, (stage.edit? host).bind Edit.cellValue? = some value → regime.Kept value
  error : ∀ error, stage.error? host = some error → regime.raised error

/-! ### The making of closures -/

/-- What happens when code makes a closure: the scope that it runs in, what the new closure is to
capture, and the new closure. -/
structure Making where
  running : Scope
  captures : List Capture
  made : Closure
  deriving DecidableEq

/-- The closure that the next step makes, unless something that it is to capture is not there. -/
def Machine.making? (machine : Machine W) : Option Making :=
  match machine.focus with
  | .code id pointer =>
    match machine.store.chunk.instruction? pointer with
    | some (.makeClosure function captures) =>
      match Attempt.mapEach (Store.capture id) captures machine.store with
      | (.ok cells, after) =>
        some ⟨((machine.store.processor id).frames.top?.map Frame.scope).getD ⟨0, []⟩, captures,
          ⟨function, ⟨after.nextScope, cells⟩⟩⟩
      | (.error _, _) => none
    | _ => none
  | _ => none

/-- The arguments that the code may copy next are no tuples. -/
def Machine.Clear (machine : Machine W) : Prop :=
  ∀ id pointer, machine.focus = .code id pointer → ∀ frame,
    (machine.store.processor id).frames.top? = some frame →
      (machine.store.processor id).Clear frame

/-- The error that a host function is told is within the regime. -/
theorem Machine.Obeys.told {stage : Stage W} (obeys : stage.before.Obeys regime)
    {error : ScriptError} (told : stage.told? = some error) : regime.raised error := by
  cases stage with
  | begins before operation => cases told
  | steps before =>
    obtain ⟨store, world, focus, pending⟩ := before
    cases focus with
    | host id event => exact obeys.focus.error error told
    | code id pointer => cases told
    | settled outcome => cases told

/-- Where a closure can be in a machine: on a stack, run by a frame, waiting to be started, in a
table, in a cell, or on its way to someone. -/
inductive Machine.Holds (machine : Machine W) : Closure → Prop where
  | value {id : CoroutineId} {value : Value} {closure : Closure}
      (member : value ∈ (machine.store.processor id).values.toList)
        (inside : value.Contains closure) :
      Holds machine closure
  | frame {id : CoroutineId} {frame : Frame}
      (member : frame ∈ (machine.store.processor id).frames.toList) :
      Holds machine ⟨frame.function, frame.scope⟩
  | entry {id : CoroutineId} {closure : Closure}
      (entry : (machine.store.processor id).entry = some closure) : Holds machine closure
  | table {table : Table} {entry : String × Value} {closure : Closure}
      (member : table ∈ machine.store.tables.contents.toList) (there : entry ∈ table.entries)
      (inside : entry.2.Contains closure) : Holds machine closure
  | cell {value : Value} {closure : Closure} (member : value ∈ machine.store.cells.toList)
      (inside : value.Contains closure) : Holds machine closure
  | outcome {exit : Exit} {closure : Closure} (settled : machine.focus = .settled (.ok exit))
      (inside : exit.value.Contains closure) : Holds machine closure
  | told {id : CoroutineId} {event : HostEvent} {value : Value} {closure : Closure}
      (hosts : machine.focus = .host id event) (member : value ∈ event.values)
      (inside : value.Contains closure) : Holds machine closure

/-! ### Entries -/

/-- Both ways to end well hand on a value that may lie on a stack. -/
theorem Outcome.Obeys.value {exit : Exit} (obeys : Outcome.Obeys regime (.ok exit)) :
    regime.Carried exit.value := by
  cases exit with
  | returned value => exact obeys
  | yielded value resumeAt => exact obeys.1

/-- A refusal by a guard is no error of the code. -/
theorem raised_of_refused {guard : ThreadGuard} {thread : ThreadId} {error : ScriptError}
    (refused : guard.enter thread = .error error) : regime.raised error := by
  refine regime.raises error ?_
  rintro function rfl
  rw [ThreadGuard.enter] at refused
  split at refused
  · cases refused
  · split at refused <;> cases refused

/-- Nothing that an entry leads to is outside of the regime. -/
structure Turn.Obeys (regime : Regime) (turn : Turn) : Prop where
  store : turn.store.Obeys regime
  focus : turn.focus.Obeys regime
  waiting : ∀ waiting ∈ turn.waiting, waiting.Obeys regime

/-- An entry that is refused brings the reason and leaves the store alone. -/
theorem Turn.Obeys.refuse {store : Store} (obeys : store.Obeys regime) {error : ScriptError}
    (allowed : regime.raised error) : (Turn.refuse store error).Obeys regime :=
  ⟨obeys, allowed, fun _ member => by cases member⟩

/-- It makes no difference who else is to be told the outcome, as long as they go on at places that
code can reach. -/
theorem Turn.Obeys.andThen {turn : Turn} (obeys : turn.Obeys regime) {waiting : Pending}
    (allowed : waiting.Obeys regime) : (turn.andThen waiting).Obeys regime :=
  ⟨obeys.store, obeys.focus,
    List.forall_mem_append.mpr ⟨obeys.waiting, List.forall_mem_singleton.mpr allowed⟩⟩

/-- A machine takes an entry over as it is, before those who wait already. -/
theorem Turn.Obeys.enter {turn : Turn} (obeys : turn.Obeys regime) (world : W)
    {pending : List Pending} (outer : ∀ waiting ∈ pending, waiting.Obeys regime) :
    (Machine.enter turn world pending).Obeys regime :=
  ⟨obeys.store, obeys.focus, List.forall_mem_append.mpr ⟨obeys.waiting, outer⟩⟩

/-- An attempt that nobody waits within is over at once, and what it reports is handed on. -/
theorem Turn.Obeys.reports {α : Type} {attempt : Attempt Store α} {reached : α → Prop}
    {store : Store} (upholds : Store.Upholds regime reached attempt) (obeys : store.Obeys regime)
    (report : α → Value) (carried : ∀ result, regime.Carried (report result)) :
    Turn.Obeys regime ⟨(attempt store).2,
      .settled ((attempt store).1.map fun result => .returned (report result)), []⟩ := by
  have ends := upholds store obeys
  rw [Attempt.Ends] at ends
  split at ends
  next result after run =>
    rw [run]
    exact ⟨ends.2, carried result, fun _ member => by cases member⟩
  next error after run =>
    rw [run]
    exact ⟨ends.2, ends.1, fun _ member => by cases member⟩

namespace Store

variable {store : Store} {arguments : List Value}

/-- A regime does not speak of the status of a coroutine. -/
theorem Obeys.setStatus (obeys : store.Obeys regime) (id : CoroutineId) (status : CoroutineStatus) :
    (store.setStatus id status).Obeys regime := obeys.modifyCoroutine id (obeys.processors id)

/-- Nor of who uses it. -/
theorem Obeys.setAccess (obeys : store.Obeys regime) (id : CoroutineId) (access : Access) :
    (store.setAccess id access).Obeys regime := obeys.modifyCoroutine id (obeys.processors id)

/-- The guard and the permission to yield are nothing that a regime is about. -/
theorem Obeys.modifyProcessor (obeys : store.Obeys regime) (id : CoroutineId)
    {change : Processor → Processor}
    (kept : ∀ processor : Processor, processor.Obeys regime → (change processor).Obeys regime) :
    (store.modifyProcessor id change).Obeys regime :=
  obeys.modifyCoroutine id (kept _ (obeys.processors id))

/-- Nor of its guard. -/
theorem Obeys.setGuard (obeys : store.Obeys regime) (id : CoroutineId) (guard : ThreadGuard) :
    (store.setGuard id guard).Obeys regime :=
  obeys.modifyProcessor id fun _ kept => ⟨kept.values, kept.frames, kept.entry, kept.saved⟩

/-- An entry that has passed the guard. -/
theorem Obeys.entered (obeys : store.Obeys regime) {id : CoroutineId}
    {attempt : Attempt Processor Nat} {reaches : Nat → Prop}
    (upholds : Processor.Upholds regime reaches attempt)
    (reached : ∀ pointer, reaches pointer → regime.chunk.Reaches pointer) {close : Pending}
    (allowed : close.Obeys regime) :
    Turn.Obeys regime ⟨(onProcessor id attempt store).2,
      Turn.focusAt id (onProcessor id attempt store).1, [close]⟩ := by
  have ends := upholds_onProcessor upholds id store obeys
  rw [Attempt.Ends] at ends
  split at ends
  next pointer after run =>
    rw [run]
    exact ⟨ends.2, reached pointer ends.1, List.forall_mem_singleton.mpr allowed⟩
  next error after run =>
    rw [run]
    exact ⟨ends.2, ends.1, List.forall_mem_singleton.mpr allowed⟩

/-- A call supplies its callee and arguments, and both are within the regime if the host keeps to
it. The call may be refused by the guard, or go wrong for want of room or of a function; none of
these errors but the last one names a function. -/
theorem Obeys.beginCall (obeys : store.Obeys regime) (id : CoroutineId) {callee : Option Value}
    (called : ∀ value, callee = some value → regime.Allows value)
    (given : ∀ argument ∈ arguments, regime.Allows argument) :
    (store.beginCall id callee arguments).Obeys regime := by
  unfold Store.beginCall
  split
  next error refused => exact .refuse obeys (raised_of_refused refused)
  next guard admitted =>
    have ready : Store.Obeys regime
        (store.setGuard id guard |>.modifyProcessor id ({ · with mayYield := false })) :=
      (obeys.setGuard id guard).modifyProcessor id fun _ kept =>
        ⟨kept.values, kept.frames, kept.entry, kept.saved⟩
    rw [obeys.chunk]
    exact ready.entered (upholds_enterFromHost called given) (fun _ => .enters) (by trivial)

/-- A resume goes on after the yield that stopped its coroutine, or it begins a function. The first
is a place that code can get to because a yield has been there, and the second because the closure
has been admitted when the coroutine was created. -/
theorem upholds_enterFromResume (given : ∀ argument ∈ arguments, regime.Allows argument) :
    Processor.Upholds regime regime.chunk.Reaches (enterFromResume regime.chunk arguments) := by
  intro processor obeys
  have ready :
      ∀ entry : Option Closure, (∀ closure, entry = some closure → regime.closure closure) →
      Processor.Obeys regime { processor with savedPointer := none, entry := entry } :=
    fun entry allowed => ⟨obeys.values, obeys.frames, allowed, fun _ none => by cases none⟩
  cases saved : processor.savedPointer with
  | some pointer =>
    have goes : Processor.Upholds regime regime.chunk.Reaches
        (do push (.pack (Value.spread arguments)); return pointer) :=
      Attempt.upholds_bind (upholds_push (Regime.carried_pack_spread given)) fun _ _ =>
        Attempt.upholds_pure (.follows (obeys.saved pointer saved))
    have ends := goes _ (ready processor.entry obeys.entry)
    rw [Attempt.Ends] at ends ⊢
    rw [enterFromResume]
    simp only [saved]
    exact ends
  | none =>
    cases entry : processor.entry with
    | some closure =>
      have allowed : ∀ value, some (Value.closure closure) = some value → regime.Allows value := by
        rintro _ ⟨⟩
        exact Regime.allows_closure (obeys.entry closure entry)
      have fresh : { processor with entry := none } =
          { processor with savedPointer := none, entry := none } := by rw [← saved]
      have starts := upholds_enterFromHost allowed given { processor with entry := none }
        (fresh ▸ ready none fun _ none => by cases none)
      have same : enterFromResume regime.chunk arguments processor =
          enterFromHost regime.chunk (some (.closure closure)) arguments
            { processor with entry := none } := by
        simp only [enterFromResume, saved, entry]
      rw [Attempt.Ends, same]
      exact starts.mono (fun _ _ reached => ⟨.enters reached.1, reached.2⟩) fun _ _ failed => failed
    | none =>
      rw [Attempt.Ends, enterFromResume]
      simp only [saved, entry]
      exact ⟨regime.raises _ (fun _ => ScriptError.noConfusion), obeys⟩

/-- A resume supplies arguments only. The closure that a new coroutine begins with has been admitted
at its creation, and the place that a suspended one goes on at lies behind a yield. -/
theorem Obeys.beginResume (obeys : store.Obeys regime) (target : CoroutineId)
    (given : ∀ argument ∈ arguments, regime.Allows argument) :
    (store.beginResume target arguments).Obeys regime := by
  unfold Store.beginResume
  dsimp only
  split
  · exact .refuse obeys (regime.raises _ (fun _ => ScriptError.noConfusion))
  split
  · exact .refuse obeys (regime.raises _ (fun _ => ScriptError.noConfusion))
  split
  · exact .refuse obeys (regime.raises _ (fun _ => ScriptError.noConfusion))
  split
  next error refused => exact .refuse obeys (raised_of_refused refused)
  next guard admitted =>
    have ready := ((obeys.setGuard target guard).setStatus target .running).setAccess target
      .executing
    rw [obeys.chunk]
    exact ready.entered (upholds_enterFromResume given) (fun _ reaches => reaches) (by trivial)

/-- Whether or not the resumer becomes Normal first, the rest is a resume as through a handle. -/
theorem Obeys.beginChildResume (obeys : store.Obeys regime) (id target : CoroutineId)
    (given : ∀ argument ∈ arguments, regime.Allows argument) :
    (store.beginChildResume id target arguments).Obeys regime := by
  unfold Store.beginChildResume
  split
  · exact ((obeys.setStatus id .normal).beginResume target given).andThen trivial
  · exact obeys.beginResume target given

/-- What begins on a borrowed processor is what would begin on it anyway. -/
theorem Obeys.borrowing (obeys : store.Obeys regime) (id : CoroutineId) {begin : Store → Turn}
    (begins : ∀ store : Store, store.Obeys regime → (begin store).Obeys regime) :
    (Store.borrowing id begin store).Obeys regime := by
  unfold Store.borrowing
  split
  · exact .refuse obeys (regime.raises _ (fun _ => ScriptError.noConfusion))
  · exact (begins _ (obeys.setAccess id .executing)).andThen trivial

/-- A call through the script is a call on its own processor, borrowed. -/
theorem Obeys.beginScriptCall (obeys : store.Obeys regime) {callee : Value}
    (called : regime.Allows callee) (given : ∀ argument ∈ arguments, regime.Allows argument) :
    (store.beginScriptCall callee arguments).Obeys regime :=
  obeys.borrowing Store.main fun _ kept =>
    kept.beginCall Store.main (fun _ same => Option.some.inj same ▸ called) given

/-- What a host changes by hand stays within the regime if the values that it supplies are. A cell
is written to as well as a table, and for cells the regime asks for more. -/
theorem Obeys.edit (obeys : store.Obeys regime) (change : Edit)
    (supplied : ∀ value ∈ change.values, regime.Allows value)
    (cells : ∀ value, change.cellValue? = some value → regime.Kept value) :
    (store.edit change).Obeys regime := by
  cases change with
  | createTable =>
    refine ⟨obeys.chunk, ?_, obeys.cells, obeys.processors⟩
    simp only [Store.edit, Tables.create, Array.toList_push]
    exact List.forall_mem_append.mpr ⟨obeys.tables,
      List.forall_mem_singleton.mpr (fun _ member => by cases member)⟩
  | setEntry table name value => exact obeys.setTable table name (supplied _ List.mem_cons_self)
  | createCell value => exact obeys.pushCell (cells _ rfl)
  | writeCell cell value => exact obeys.writeCell cell (cells _ rfl)
  | createScope => exact obeys.congr rfl rfl rfl rfl
  | attach debugger => exact obeys.congr rfl rfl rfl rfl
  | resetCounters => exact obeys.congr rfl rfl rfl rfl
  | hold id =>
    simp only [Store.edit, Store.hold]
    split
    · exact obeys
    · exact obeys.setAccess id _
  | letGo id =>
    simp only [Store.edit, Store.letGo]
    split
    · exact obeys.setAccess id _
    · exact obeys
  | enterGuard id thread =>
    simp only [Store.edit, Store.enterGuard]
    split
    · exact obeys.setGuard id _
    · exact obeys
  | leaveGuard id => exact obeys.setGuard id _

end Store

/-! ### Steps -/

section

variable {store : Store} {world : W} {pending : List Pending} {id : CoroutineId}

/-- The conditions on the next instruction, told by the machine that is about to carry it out. -/
theorem Store.Obeys.carriesOut (obeys : store.Obeys regime) {pointer : Nat}
    {instruction : Instruction} (fetched : store.chunk.instruction? pointer = some instruction)
    (clear : regime.flat →
      Machine.Clear (⟨store, world, .code id pointer, pending⟩ : Machine W))
    (made : ∀ making, Machine.making? (⟨store, world, .code id pointer, pending⟩ : Machine W) =
      some making → regime.closure making.made) :
    (Store.execute id instruction (pointer + 1)).Ends store
      (fun flow after => flow.Obeys regime instruction (pointer + 1) ∧ after.Obeys regime)
      (fun error after => regime.raised error ∧ after.Obeys regime) := by
  refine obeys.execute fetched (fun flat => clear flat id pointer rfl) ?_
  rintro function captures cells after rfl captured
  refine made ⟨((store.processor id).frames.top?.map Frame.scope).getD ⟨0, []⟩, captures,
    ⟨function, ⟨after.nextScope, cells⟩⟩⟩ ?_
  simp only [Machine.making?, fetched, captured]

/-- Code stays within the regime. Two things have to be known from elsewhere: that the arguments
which an instruction is going to copy are those of its frame, where tuples are not to hold tuples,
and that the closure which it is going to make, if any, is one that there may be. -/
theorem Store.Obeys.stepCode (obeys : store.Obeys regime) {pointer : Nat}
    (outer : ∀ waiting ∈ pending, waiting.Obeys regime)
    (clear : regime.flat →
      Machine.Clear (⟨store, world, .code id pointer, pending⟩ : Machine W))
    (made : ∀ making, Machine.making? (⟨store, world, .code id pointer, pending⟩ : Machine W) =
      some making → regime.closure making.made) :
    (Machine.stepCode id pointer store world pending).Obeys regime := by
  unfold Machine.stepCode
  split
  next => exact ⟨obeys, regime.raises _ (fun _ => ScriptError.noConfusion), outer⟩
  next instruction fetched =>
    have here := fetched
    rw [obeys.chunk] at here
    have ends := obeys.carriesOut fetched clear made
    rw [Attempt.Ends] at ends
    split at ends
    next flow after run =>
      rw [run]
      obtain ⟨shape, kept⟩ := ends
      cases shape with
      | onward => exact ⟨kept, .next here, outer⟩
      | jumps jumps => exact ⟨kept, .jumps here jumps, outer⟩
      | enters enters => exact ⟨kept, .enters enters, outer⟩
      | returns leaves follows => exact ⟨kept, .follows follows, outer⟩
      | returned carried => exact ⟨kept, carried, outer⟩
      | yielded stops carried =>
        exact ⟨kept, ⟨carried, pointer, instruction, here, stops, rfl⟩, outer⟩
      | callsHost calls given =>
        exact ⟨kept, ⟨given, (fun _ none => by cases none)⟩,
          List.forall_mem_cons.mpr ⟨⟨pointer, instruction, here, calls, rfl⟩, outer⟩⟩
      | resumes resumes given =>
        exact (kept.beginChildResume id _ fun argument member =>
          (given argument member).allowed).enter
          world (List.forall_mem_cons.mpr ⟨⟨pointer, instruction, here, resumes, rfl⟩, outer⟩)
    next error after run =>
      rw [run]
      exact ⟨ends.2, ends.1, outer⟩

/-- A request of a host function stays within the regime if what it supplies does. It is gone
through request by request, each of which either enters something or is answered at once. -/
theorem Store.Obeys.stepRequest (obeys : store.Obeys regime) {request : Request}
    (supplied : request.Obeys regime) (outer : ∀ waiting ∈ pending, waiting.Obeys regime) :
    (Machine.stepRequest id request store world pending).Obeys regime := by
  obtain ⟨values, placed, cells, fails⟩ := supplied
  have done : HostEvent.Obeys regime .done := HostEvent.obeys_silent rfl rfl
  cases request with
  | finish outcome =>
    cases outcome with
    | ok value => exact ⟨obeys, placed value rfl, outer⟩
    | error error => exact ⟨obeys, fails error rfl, outer⟩
  | call callee arguments =>
    obtain ⟨called, given⟩ := List.forall_mem_cons.mp values
    exact (obeys.beginCall id (fun value same => Option.some.inj same ▸ called) given).enter world
      (List.forall_mem_cons.mpr ⟨trivial, outer⟩)
  | resume target arguments =>
    exact (obeys.beginChildResume id target values).enter world
      (List.forall_mem_cons.mpr ⟨trivial, outer⟩)
  | create function =>
    have ends := Store.upholds_spawn id (values function List.mem_cons_self) store obeys
    rw [Attempt.Ends] at ends
    rw [Machine.stepRequest]
    split at ends
    next created after run =>
      rw [run]
      exact ⟨ends.2, HostEvent.obeys_silent rfl rfl, outer⟩
    next error after run =>
      rw [run]
      exact ⟨ends.2, HostEvent.obeys_failed rfl rfl ends.1, outer⟩
  | setGlobal name value =>
    exact ⟨obeys.setTable Store.globals name (values value List.mem_cons_self), done, outer⟩
  | callScript callee arguments =>
    obtain ⟨called, given⟩ := List.forall_mem_cons.mp values
    exact (obeys.beginScriptCall called given).enter world
      (List.forall_mem_cons.mpr ⟨trivial, outer⟩)
  | resumeHandle target arguments =>
    exact (obeys.beginResume target values).enter world (List.forall_mem_cons.mpr ⟨trivial, outer⟩)
  | enterGuard thread =>
    rw [Machine.stepRequest]
    split
    next guard admitted =>
      exact ⟨obeys.setGuard id guard, HostEvent.obeys_silent rfl rfl, outer⟩
    next error refused =>
      exact ⟨obeys, HostEvent.obeys_failed rfl rfl (raised_of_refused refused), outer⟩
  | attach debugger => exact ⟨obeys.congr rfl rfl rfl rfl, done, outer⟩
  | resetCounters => exact ⟨obeys.congr rfl rfl rfl rfl, done, outer⟩
  | edit change => exact ⟨obeys.edit change values cells, done, outer⟩

/-- A result is pushed where it fits, and the code goes on at a place that it can reach. -/
theorem Store.Obeys.pushResult (obeys : store.Obeys regime) {resumeAt : Nat} {value : Value}
    (carried : regime.Carried value) (reaches : regime.chunk.Reaches resumeAt)
    (outer : ∀ waiting ∈ pending, waiting.Obeys regime) :
    (Machine.pushResult id resumeAt value store world pending).Obeys regime := by
  have ends := Store.upholds_onProcessor (Processor.upholds_push carried) id store obeys
  rw [Attempt.Ends] at ends
  rw [Machine.pushResult]
  split at ends
  next run =>
    rw [run]
    exact ⟨ends.2, reaches, outer⟩
  next run =>
    rw [run]
    exact ⟨ends.2, ends.1, outer⟩

/-- To leave a guard may tell a debugger, which may raise an error; it brings no value. -/
theorem Store.Obeys.leaveGuard (obeys : store.Obeys regime) (id : CoroutineId)
    (stopwatch : Option Stopwatch) :
    (Machine.leaveGuard host id (Machine.stopWatch stopwatch store) world).1.Obeys regime := by
  have stopped : (Machine.stopWatch stopwatch store).Obeys regime := by
    cases stopwatch with
    | none => exact obeys
    | some stopwatch => exact obeys.congr rfl rfl rfl rfl
  simp only [Machine.leaveGuard]
  split
  · exact (stopped.setGuard id _).congr rfl rfl rfl rfl
  · exact stopped.setGuard id _

/-- A coroutine that has yielded goes on after its yield, and any other one that has ended is
empty. -/
theorem Processor.Obeys.after {processor : Processor} (obeys : processor.Obeys regime)
    {outcome : Outcome} (allowed : outcome.Obeys regime) :
    (Machine.processorAfter outcome processor).Obeys regime := by
  unfold Machine.processorAfter
  split
  next value resumeAt =>
    refine ⟨obeys.values, obeys.frames, obeys.entry, fun pointer saved => ?_⟩
    exact Option.some.inj saved ▸ allowed.2
  next => exact obeys.clear

/-- An outcome that is within the regime is so in whatever form it is handed on: as the result of an
instruction, as an event of the host, or as a report about a coroutine. -/
theorem Store.Obeys.stepSettled (obeys : store.Obeys regime) (host : Host W) {outcome : Outcome}
    {waiting : Pending} (allowed : outcome.Obeys regime) (awaits : waiting.Obeys regime)
    (outer : ∀ waiting ∈ pending, waiting.Obeys regime) :
    (Machine.stepSettled host outcome waiting store world pending).Obeys regime := by
  cases waiting with
  | hostFunction on resumeAt =>
    cases outcome with
    | ok exit => exact obeys.pushResult allowed.value (.follows awaits) outer
    | error error => exact ⟨obeys, allowed, outer⟩
  | resumeInstruction on resumeAt =>
    have reported : regime.Carried (Machine.resumeReport outcome) := by
      refine Regime.carried_resumeReport ?_
      rintro exit rfl
      exact allowed.value
    cases outcome with
    | ok exit => exact obeys.pushResult reported (.follows awaits) outer
    | error error =>
      simp only [Machine.stepSettled]
      split
      · exact ⟨obeys, allowed, outer⟩
      · exact obeys.pushResult reported (.follows awaits) outer
  | closeCall on valueHeight frameHeight mayYield stopwatch =>
    have closed : Store.Obeys regime
        (store.modifyProcessor on (Processor.restore valueHeight frameHeight mayYield)) :=
      obeys.modifyProcessor on fun _ kept => kept.restore valueHeight frameHeight mayYield
    refine ⟨closed.leaveGuard on stopwatch, ?_, outer⟩
    simp only [Machine.stepSettled, Machine.closeCall]
    split
    · exact regime.raises _ (fun _ => ScriptError.noConfusion)
    · exact allowed
  | closeResume target before stopwatch =>
    have closed : Store.Obeys regime
        (store.modifyProcessor target (Machine.processorAfter outcome)) :=
      obeys.modifyProcessor target fun _ kept => kept.after allowed
    exact ⟨((closed.leaveGuard target stopwatch).setStatus target _).setAccess target _,
      allowed, outer⟩
  | wake on => exact ⟨obeys.setStatus on .running, allowed, outer⟩
  | release on => exact ⟨obeys.setAccess on .free, allowed, outer⟩
  | hostCall on | hostResume on =>
    refine ⟨obeys, ?_, outer⟩
    cases outcome with
    | ok exit => exact HostEvent.obeys_given rfl rfl allowed.value
    | error error => exact HostEvent.obeys_failed rfl rfl allowed

end

namespace Machine.Obeys

variable {machine : Machine W}

/-- A step brings nothing in from outside of the regime, if the host does not and a closure that is
made is one that there may be. -/
theorem step (obeys : machine.Obeys regime) (supplied : (Stage.steps machine).Obeys regime host)
    (clear : regime.flat → machine.Clear)
    (made : ∀ making, machine.making? = some making → regime.closure making.made) :
    (machine.step host).Obeys regime := by
  obtain ⟨store, world, focus, pending⟩ := machine
  obtain ⟨inside, allowed, outer⟩ := obeys
  cases focus with
  | code id pointer => exact inside.stepCode outer clear made
  | host id event =>
    obtain ⟨values, placed, cells, error⟩ := supplied
    exact inside.stepRequest ⟨values, placed, cells, error⟩ outer
  | settled outcome =>
    cases pending with
    | nil => exact ⟨inside, allowed, outer⟩
    | cons waiting pending =>
      obtain ⟨awaits, outer⟩ := List.forall_mem_cons.mp outer
      exact inside.stepSettled host allowed awaits outer

/-- Neither does the beginning of an operation: what it supplies are its arguments, and these are
within the regime. -/
theorem begin (obeys : machine.Obeys regime) (operation : Operation)
    (supplied : (Stage.begins machine operation).Obeys regime host) (world : W) :
    (Machine.enter (operation.begin machine.store) world []).Obeys regime := by
  obtain ⟨values, placed, cells, _⟩ := supplied
  have store := obeys.store
  refine Turn.Obeys.enter ?_ world fun _ member => by cases member
  cases operation with
  | call callee arguments =>
    obtain ⟨called, given⟩ := List.forall_mem_cons.mp values
    exact store.beginScriptCall called given
  | callTop arguments =>
    exact store.borrowing Store.main fun _ kept =>
      kept.beginCall Store.main (fun _ none => by cases none) values
  | push value =>
    have pushes := Store.upholds_onProcessor (Processor.upholds_push (placed value rfl)) Store.main
    exact store.borrowing Store.main fun _ kept =>
      .reports pushes kept (fun _ => .nil) fun _ => Regime.carried_plain rfl fun _ =>
        Value.noConfusion
  | resume target arguments => exact store.beginResume target values
  | create function =>
    have created := Store.upholds_spawn Store.main (values function List.mem_cons_self).collapse
    exact .reports created store .coroutine fun _ => Regime.carried_plain rfl fun _ =>
      Value.noConfusion
  | edit change =>
    exact ⟨store.edit change values cells, Regime.carried_plain rfl (fun _ => Value.noConfusion),
      fun _ member => by cases member⟩

end Machine.Obeys

/-- A regime says which closures there may be anywhere in a machine: on a stack, in a table, a cell
or a frame, in what is told, and in what those who wait have kept. -/
theorem Machine.Obeys.closure {machine : Machine W} (obeys : machine.Obeys regime)
    {closure : Closure} (holds : machine.Holds closure) : regime.closure closure := by
  have focus := obeys.focus
  cases holds with
  | value member inside => exact ((obeys.store.processors _).values _ member).allowed closure inside
  | frame member => exact ((obeys.store.processors _).frames _ member).closure
  | entry entry => exact (obeys.store.processors _).entry closure entry
  | table member there inside => exact (obeys.store.tables _ member _ there).1 closure inside
  | cell member inside => exact (obeys.store.cells _ member).allowed closure inside
  | outcome settled inside =>
    rw [settled] at focus
    exact (Outcome.Obeys.value focus).allowed closure inside
  | told hosts member inside =>
    rw [hosts] at focus
    exact (focus.values _ member).allowed closure inside

/-- A script in which nothing has happened obeys every regime for its chunk. -/
theorem obeys_new (settings : Settings) (thread : ThreadId) (world : W) :
    (Machine.new (.initial regime.chunk settings thread) world).Obeys regime where
  store := by
    refine ⟨rfl, ?_, (fun _ member => by cases member), fun id => ?_⟩
    · exact List.forall_mem_singleton.mpr (fun _ member => by cases member)
    · rw [Store.processor, Store.coroutine]
      cases id with
      | zero => exact Processor.obeys_idle _ _ fun _ none => by cases none
      | succ id => exact Processor.obeys_idle _ _ fun _ none => by cases none
  focus := Regime.carried_plain rfl (fun _ => Value.noConfusion)
  pending := fun _ member => by cases member

/-- What the host supplies at each stage of a run decides what there is in its machines, if the
regime does not change and is fit for the closures that the code makes. -/
theorem Machine.Traces.obeys {settings : Settings} {thread : ThreadId} {world : W}
    {trace : List (Stage W)} {machine : Machine W}
    (traces :
      Machine.Traces host (.new (.initial regime.chunk settings thread) world) trace machine)
    (supplied : ∀ later stage earlier, trace = later ++ stage :: earlier →
      (∀ other ∈ stage :: earlier, other.before.Obeys regime) → stage.Obeys regime host)
    (clear : regime.flat → ∀ stage ∈ trace, stage.before.Clear)
    (made : ∀ stage ∈ trace, stage.before.Obeys regime →
      ∀ making, stage.before.making? = some making → regime.closure making.made) :
    machine.Obeys regime ∧ ∀ stage ∈ trace, stage.before.Obeys regime := by
  induction traces with
  | stays => exact ⟨obeys_new settings thread world, fun _ member => by cases member⟩
  | @begins trace before operation later traces rests inductionHypothesis =>
    obtain ⟨obeys, others⟩ := inductionHypothesis
      (fun later stage earlier split => supplied (_ :: later) stage earlier (congrArg _ split))
      (fun flat stage member => clear flat stage (List.mem_cons_of_mem _ member))
      (fun stage member => made stage (List.mem_cons_of_mem _ member))
    have all : ∀ other ∈ Stage.begins before operation :: trace, other.before.Obeys regime :=
      List.forall_mem_cons.mpr ⟨obeys, others⟩
    exact ⟨obeys.begin operation (supplied [] _ trace rfl all) later, all⟩
  | @steps trace before traces inductionHypothesis =>
    obtain ⟨obeys, others⟩ := inductionHypothesis
      (fun later stage earlier split => supplied (_ :: later) stage earlier (congrArg _ split))
      (fun flat stage member => clear flat stage (List.mem_cons_of_mem _ member))
      (fun stage member => made stage (List.mem_cons_of_mem _ member))
    have all : ∀ other ∈ Stage.steps before :: trace, other.before.Obeys regime :=
      List.forall_mem_cons.mpr ⟨obeys, others⟩
    exact ⟨obeys.step (supplied [] _ trace rfl all)
      (fun flat => clear flat _ List.mem_cons_self) (made _ List.mem_cons_self obeys), all⟩

end CoroutineVM
