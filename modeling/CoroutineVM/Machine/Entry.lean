import CoroutineVM.Machine.Basic

/-!
How script code is entered and left.

A call or a resume first passes the guard of its processor; one that is turned away leaves no trace.
Once it is in, whatever happens is closed by the matching `close` function: the counters count it,
the guard is left, and when that was the outermost level a debugger is told.
-/

namespace CoroutineVM

/-- What an entry leads to: the store, where the machine stands, and who waits, innermost first. -/
structure Turn where
  store : Store
  focus : Focus
  waiting : List Pending

namespace Turn

/-- An entry that ends at once. -/
def refuse (store : Store) (error : ScriptError) : Turn := ⟨store, .settled (.error error), []⟩

/-- Someone more waits outside of all others. -/
def andThen (turn : Turn) (pending : Pending) : Turn :=
  { turn with waiting := turn.waiting ++ [pending] }

/-- The focus after an attempt to prepare an entry. -/
def focusAt (id : CoroutineId) : Except ScriptError Nat → Focus
  | .ok pointer => .code id pointer
  | .error error => .settled (.error error)

end Turn

namespace Store

/-- The guard of a processor after the script's thread has entered it. -/
def passGuard (store : Store) (id : CoroutineId) : Except ScriptError ThreadGuard :=
  (store.processor id).guard.enter store.thread

/-- Calls a function on a processor; without one, the value on top of its stack is called and used
up. Yields are not allowed until the call ends. -/
def beginCall (id : CoroutineId) (callee : Option Value) (arguments : List Value)
    (store : Store) : Turn :=
  match store.passGuard id with
  | .error error => .refuse store error
  | .ok guard =>
    let processor := store.processor id
    let height := processor.values.height
    let valueHeight := if callee.isSome then height else height - 1
    let close := Pending.closeCall id valueHeight processor.frames.height processor.mayYield
      (store.counters.start? .execution)
    let chunk := store.chunk
    let store := store.setGuard id guard |>.modifyProcessor id ({ · with mayYield := false })
    match onProcessor id (Processor.enterFromHost chunk callee arguments) store with
    | (entered, store) => ⟨store, Turn.focusAt id entered, [close]⟩

/-- Starts a coroutine or lets it go on. -/
def beginResume (target : CoroutineId) (arguments : List Value) (store : Store) : Turn :=
  let status := store.status target
  if status = .dead then .refuse store .coroutineDead
  else if !status.isResumable then .refuse store (.coroutineNotSuspended status)
  else if store.access target ≠ .free then .refuse store .processorBusy
  else match store.passGuard target with
    | .error error => .refuse store error
    | .ok guard =>
      let close := Pending.closeResume target status (store.counters.start? .resume)
      let chunk := store.chunk
      let store := store.setGuard target guard |>.setStatus target .running
        |>.setAccess target .executing
      match onProcessor target (Processor.enterFromResume chunk arguments) store with
      | (entered, store) => ⟨store, Turn.focusAt target entered, [close]⟩

/-- Resumes a coroutine from another one, which is normal while it waits if it is running. -/
def beginChildResume (id target : CoroutineId) (arguments : List Value) (store : Store) : Turn :=
  if store.status id = .running ∧ id ≠ target then
    (beginResume target arguments (store.setStatus id .normal)).andThen (.wake id)
  else beginResume target arguments store

/-- Uses a processor through its handle: it must be free, and nobody else gets it meanwhile. -/
def borrowing (id : CoroutineId) (begin : Store → Turn) (store : Store) : Turn :=
  if store.access id ≠ .free then .refuse store .processorBusy
  else (begin (store.setAccess id .executing)).andThen (.release id)

/-- Calls a function on the script's own processor, through its handle. -/
def beginScriptCall (callee : Value) (arguments : List Value) : Store → Turn :=
  borrowing main (beginCall main (some callee) arguments)

/-- Carries out code from a place on, without a frame of its own. -/
def beginCode (id : CoroutineId) (pointer : Nat) (store : Store) : Turn :=
  ⟨store, .code id pointer, []⟩

end Store

namespace Machine

variable {W : Type}

/-- Leaves the guard of a processor; a debugger is told about the end of the outermost level. -/
def leaveGuard (host : Host W) (id : CoroutineId) (store : Store) (world : W) : Store × W :=
  let (outermost, guard) := (store.processor id).guard.leave
  let store := store.setGuard id guard
  match outermost, store.debugger with
  | true, some debugger =>
    let (world, debugger) := host.executionEnded debugger id store world
    ({ store with debugger := debugger }, world)
  | _, _ => (store, world)

/-- Counts what a stopwatch was started for. -/
def stopWatch (stopwatch : Option Stopwatch) (store : Store) : Store :=
  match stopwatch with
  | some stopwatch => { store with counters := store.counters.stop stopwatch }
  | none => store

/-- Closes a call: both stacks get their heights back, and a yield, which the flag rules out, would
be an error. -/
def closeCall (host : Host W) (id : CoroutineId) (valueHeight frameHeight : Nat) (mayYield : Bool)
    (stopwatch : Option Stopwatch) (outcome : Outcome) (store : Store) (world : W) :
    Outcome × Store × W :=
  let outcome := match outcome with
    | .ok (.yielded _ _) => .error .yieldAcrossHostCall
    | outcome => outcome
  let store := store.modifyProcessor id (Processor.restore valueHeight frameHeight mayYield)
  (outcome, leaveGuard host id (stopWatch stopwatch store) world)

/-- The status of a coroutine after a resume. A refusal by a guard is taken for a sign that nothing
has run, so the coroutine is as it was before. -/
def statusAfter (before : CoroutineStatus) : Outcome → CoroutineStatus
  | .ok exit => exit.status
  | .error (.crossThreadAccess _ _) => before
  | .error _ => .dead

/-- The processor of a coroutine after a resume: a yield saves where to go on, and anything else
empties the stacks. -/
def processorAfter (outcome : Outcome) (processor : Processor) : Processor :=
  match outcome with
  | .ok (.yielded _ resumeAt) => { processor with savedPointer := some resumeAt }
  | _ => processor.clear

/-- Closes a resume. The status changes last, after a debugger has been told. -/
def closeResume (host : Host W) (target : CoroutineId) (before : CoroutineStatus)
    (stopwatch : Option Stopwatch) (outcome : Outcome) (store : Store) (world : W) :
    Store × W :=
  let store := store.modifyProcessor target (processorAfter outcome)
  let (store, world) := leaveGuard host target (stopWatch stopwatch store) world
  (store.setStatus target (statusAfter before outcome) |>.setAccess target .free, world)

end Machine

end CoroutineVM
