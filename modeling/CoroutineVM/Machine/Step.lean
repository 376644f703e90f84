import CoroutineVM.Machine.Entry
import CoroutineVM.Store.Execution

/-!
One step of the machine, and runs of many.

A step carries out one instruction, one request of the host, or hands an outcome to the innermost
one who waits. A machine whose outcome nobody waits for is at rest.
-/

namespace CoroutineVM.Machine

variable {W : Type}

/-- The machine after an entry. -/
def enter (turn : Turn) (world : W) (pending : List Pending) : Machine W :=
  ⟨turn.store, world, turn.focus, turn.waiting ++ pending⟩

/-- Carries out the instruction at `pointer`. -/
def stepCode (id : CoroutineId) (pointer : Nat) (store : Store) (world : W)
    (pending : List Pending) : Machine W :=
  match store.chunk.instruction? pointer with
  | none =>
    ⟨store, world, .settled (.error (.runtime s!"instruction pointer {pointer} out of range")),
      pending⟩
  | some instruction =>
    match Store.execute id instruction (pointer + 1) store with
    | (.error error, store) => ⟨store, world, .settled (.error error), pending⟩
    | (.ok (.goto next), store) => ⟨store, world, .code id next, pending⟩
    | (.ok (.returned value), store) => ⟨store, world, .settled (.ok (.returned value)), pending⟩
    | (.ok (.yielded value resumeAt), store) =>
      ⟨store, world, .settled (.ok (.yielded value resumeAt)), pending⟩
    | (.ok (.callHost function arguments resumeAt), store) =>
      ⟨store, world, .host id (.invoked function arguments), .hostFunction id resumeAt :: pending⟩
    | (.ok (.resume target arguments resumeAt), store) =>
      enter (store.beginChildResume id target arguments) world
        (.resumeInstruction id resumeAt :: pending)

/-- Carries out what a host function wants. -/
def stepRequest (id : CoroutineId) (request : Request) (store : Store) (world : W)
    (pending : List Pending) : Machine W :=
  match request with
  | .finish outcome => ⟨store, world, .settled (outcome.map .returned), pending⟩
  | .call callee arguments =>
    enter (store.beginCall id (some callee) arguments) world (.hostCall id :: pending)
  | .resume target arguments =>
    enter (store.beginChildResume id target arguments) world (.hostResume id :: pending)
  | .create function =>
    match Store.spawn id function store with
    | (created, store) => ⟨store, world, .host id (.created created), pending⟩
  | .setGlobal name value =>
    ⟨store.edit (.setEntry Store.globals name value), world, .host id .done, pending⟩
  | .callScript callee arguments =>
    enter (store.beginScriptCall callee arguments) world (.hostCall id :: pending)
  | .resumeHandle target arguments =>
    enter (store.beginResume target arguments) world (.hostResume id :: pending)
  | .enterGuard thread =>
    match (store.processor id).guard.enter thread with
    | .ok guard =>
      ⟨store.setGuard id guard, world, .host id (.entered (.ok guard.nesting)), pending⟩
    | .error error => ⟨store, world, .host id (.entered (.error error)), pending⟩
  | .attach debugger => ⟨store.edit (.attach debugger), world, .host id .done, pending⟩
  | .resetCounters => ⟨store.edit .resetCounters, world, .host id .done, pending⟩
  | .edit change => ⟨store.edit change, world, .host id .done, pending⟩

/-- The tuple that tells code how a resume went: true and the values, or false and the message. -/
def resumeReport : Outcome → Value
  | .ok exit => .tuple (.boolean true :: exit.value.expand)
  | .error error => .tuple [.boolean false, .string error.message]

/-- Pushes a result for code that has waited for it. -/
def pushResult (id : CoroutineId) (resumeAt : Nat) (value : Value) (store : Store) (world : W)
    (pending : List Pending) : Machine W :=
  match Store.onProcessor id (Processor.push value) store with
  | (.ok (), store) => ⟨store, world, .code id resumeAt, pending⟩
  | (.error error, store) => ⟨store, world, .settled (.error error), pending⟩

/-- Hands an outcome to the one who waits for it. -/
def stepSettled (host : Host W) (outcome : Outcome) (waiting : Pending) (store : Store) (world : W)
    (pending : List Pending) : Machine W :=
  match waiting with
  | .hostFunction id resumeAt =>
    match outcome with
    | .ok exit => pushResult id resumeAt exit.value store world pending
    | .error error => ⟨store, world, .settled (.error error), pending⟩
  | .resumeInstruction id resumeAt =>
    match outcome with
    | .error error =>
      if error.isFatal then ⟨store, world, .settled (.error error), pending⟩
      else pushResult id resumeAt (resumeReport (.error error)) store world pending
    | .ok exit => pushResult id resumeAt (resumeReport (.ok exit)) store world pending
  | .closeCall id valueHeight frameHeight mayYield stopwatch =>
    let (outcome, store, world) :=
      closeCall host id valueHeight frameHeight mayYield stopwatch outcome store world
    ⟨store, world, .settled outcome, pending⟩
  | .closeResume target before stopwatch =>
    let (store, world) := closeResume host target before stopwatch outcome store world
    ⟨store, world, .settled outcome, pending⟩
  | .wake id => ⟨store.setStatus id .running, world, .settled outcome, pending⟩
  | .release id => ⟨store.setAccess id .free, world, .settled outcome, pending⟩
  | .hostCall id => ⟨store, world, .host id (.called (outcome.map Exit.value)), pending⟩
  | .hostResume id =>
    let resumed := outcome.map fun exit => (⟨exit.status, exit.value⟩ : Resumed)
    ⟨store, world, .host id (.resumed resumed), pending⟩

/-- What the host function that a machine stands in wants. -/
def request? (host : Host W) (machine : Machine W) : Option Request :=
  match machine.focus with
  | .host id event => some (host.respond id event machine.store machine.world).2
  | _ => none

/-- Whether the machine has an outcome that nobody waits for. -/
def atRest (machine : Machine W) : Bool :=
  match machine.focus, machine.pending with
  | .settled _, [] => true
  | _, _ => false

/-- The next state of a machine; one at rest stays as it is. -/
def step (host : Host W) (machine : Machine W) : Machine W :=
  match machine with
  | ⟨store, world, .code id pointer, pending⟩ => stepCode id pointer store world pending
  | ⟨store, world, .host id event, pending⟩ =>
    match host.respond id event store world with
    | (world, request) => stepRequest id request store world pending
  | ⟨store, world, .settled outcome, waiting :: pending⟩ =>
    stepSettled host outcome waiting store world pending
  | ⟨store, world, .settled outcome, []⟩ => ⟨store, world, .settled outcome, []⟩

/-- At most so many steps, fewer if the machine comes to rest. -/
def run (host : Host W) : Nat → Machine W → Machine W
  | 0, machine => machine
  | steps + 1, machine => if machine.atRest then machine else run host steps (step host machine)

/-- The outcome of a machine at rest. -/
def outcome? (machine : Machine W) : Option Outcome :=
  match machine.focus, machine.pending with
  | .settled outcome, [] => some outcome
  | _, _ => none

end CoroutineVM.Machine
