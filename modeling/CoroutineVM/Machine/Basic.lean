import CoroutineVM.Store.Edit

/-!
The machine that runs script code and the host together.

A machine stands at one place, its `Focus`: in the code of a processor, in a host function, or at an
outcome that someone is waiting for. Who is waiting is kept in a list, innermost first. Calls,
resumes and host functions nest in any order, so this list is the only stack of control there is.

The host is a black box with a world of its own: told what has happened, it says what it wants next.
-/

namespace CoroutineVM

/-- How code that was entered from outside stops. -/
inductive Exit where
  | returned (value : Value)
  | yielded (value : Value) (resumeAt : Nat)

namespace Exit

def value : Exit → Value
  | .returned value => value
  | .yielded value _ => value

/-- The status of a coroutine that stops so. -/
def status : Exit → CoroutineStatus
  | .returned _ => .dead
  | .yielded _ _ => .suspended

end Exit

/-- What a call or a resume comes to. -/
abbrev Outcome := Except ScriptError Exit

/-- What a successful resume gives: the status of the coroutine and what it returned or yielded. -/
structure Resumed where
  status : CoroutineStatus
  value : Value

/-- What a host function is told. -/
inductive HostEvent where
  /-- It has been called. -/
  | invoked (function : HostFunction) (arguments : List Value)
  /-- The call that it asked for has ended. -/
  | called (outcome : Except ScriptError Value)
  /-- The resume that it asked for has ended. -/
  | resumed (outcome : Except ScriptError Resumed)
  /-- The coroutine that it asked for is there. -/
  | created (outcome : Except ScriptError CoroutineId)
  /-- A thread has tried to enter the processor, and this is the nesting now. -/
  | entered (outcome : Except ScriptError Nat)
  /-- What it asked for is done. -/
  | done

/-- What a host function wants next. -/
inductive Request where
  /-- To give its result. -/
  | finish (outcome : Except ScriptError Value)
  /-- To call a function on the processor that it runs on. -/
  | call (callee : Value) (arguments : List Value)
  /-- To resume a coroutine from the processor that it runs on. -/
  | resume (target : CoroutineId) (arguments : List Value)
  /-- To create a coroutine from the processor that it runs on. -/
  | create (function : Value)
  | setGlobal (name : String) (value : Value)
  /-- To call a function through the script, as one does from outside. -/
  | callScript (callee : Value) (arguments : List Value)
  /-- To resume a coroutine through its handle, as one does from outside. -/
  | resumeHandle (target : CoroutineId) (arguments : List Value)
  /-- To have a thread enter the processor that it runs on. -/
  | enterGuard (thread : ThreadId)
  /-- To say who is told about the end of executions, if anyone is. -/
  | attach (debugger : Option DebuggerId)
  /-- To have the counters count from zero again. -/
  | resetCounters
  /-- To change something that it holds. -/
  | edit (change : Edit)

/-- Whether the guard of a processor is operated by hand. -/
def Request.touchesGuard : Request → Bool
  | .enterGuard _ => true
  | .edit change => change.touchesGuard
  | _ => false

/-- The host: how its functions, whose world is `W`, answer what they are told. -/
structure Host (W : Type) where
  /-- What the host function that runs on a processor wants next. -/
  respond : CoroutineId → HostEvent → Store → W → W × Request
  /-- A debugger is told that the outermost execution on a processor has ended, and says which
  debugger is told from now on. -/
  executionEnded : DebuggerId → CoroutineId → Store → W → W × Option DebuggerId

/-- Where a machine stands. -/
inductive Focus where
  /-- In the code, about to carry out the instruction at `pointer` on a processor. -/
  | code (on : CoroutineId) (pointer : Nat)
  /-- In a host function that runs on a processor. -/
  | host (on : CoroutineId) (event : HostEvent)
  /-- At an outcome for whoever waits. -/
  | settled (outcome : Outcome)

/-- Who waits for an outcome, and what is done with it. -/
inductive Pending where
  /-- Code waits for a host function and goes on at `resumeAt`. -/
  | hostFunction (on : CoroutineId) (resumeAt : Nat)
  /-- Code waits for a coroutine that it resumed and goes on at `resumeAt`. -/
  | resumeInstruction (on : CoroutineId) (resumeAt : Nat)
  /-- A call is to be closed, the processor to be put back to how it was. -/
  | closeCall (on : CoroutineId) (valueHeight frameHeight : Nat) (mayYield : Bool)
      (stopwatch : Option Stopwatch)
  /-- A resume of a coroutine that was in the state `before` is to be closed. -/
  | closeResume (target : CoroutineId) (before : CoroutineStatus) (stopwatch : Option Stopwatch)
  /-- A coroutine that resumed another one becomes running again. -/
  | wake (id : CoroutineId)
  /-- A processor becomes free. -/
  | release (id : CoroutineId)
  /-- A host function waits for a call. -/
  | hostCall (on : CoroutineId)
  /-- A host function waits for a resume. -/
  | hostResume (on : CoroutineId)

/-- A script while it runs: the store, what the host knows, what is done next, and those who wait
for it, innermost first. -/
structure Machine (W : Type) where
  store : Store
  world : W
  focus : Focus
  pending : List Pending

end CoroutineVM
