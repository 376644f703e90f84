/-!
What can go wrong in a running script, and the states of a coroutine that some of it depends on.
-/

namespace CoroutineVM

/-- Where a coroutine is in its life.

A coroutine starts as `notStarted`. A resume makes it `running`; while it resumes another coroutine
in turn it is `normal`. A yield leaves it `suspended`, to be resumed again; a return or an error
leaves it `dead` for good. The one coroutine that wraps a script's own processor is `main` and is
never resumed. -/
inductive CoroutineStatus where
  | main
  | notStarted
  | running
  | normal
  | suspended
  | dead
  deriving DecidableEq, Repr

namespace CoroutineStatus

def name : CoroutineStatus → String
  | .main => "main"
  | .notStarted => "not_started"
  | .running => "running"
  | .normal => "normal"
  | .suspended => "suspended"
  | .dead => "dead"

/-- A coroutine may be resumed before it starts and after a yield. -/
def isResumable : CoroutineStatus → Bool
  | .notStarted | .suspended => true
  | _ => false

end CoroutineStatus

/-- Names threads of the host. -/
abbrev ThreadId := Nat

/-- What can go wrong while a script runs, with what its message tells. -/
inductive ScriptError where
  /-- A value that is no function was called. -/
  | notCallable (typeName : String)
  /-- A closure names a function that the chunk lacks. -/
  | undefinedFunction (function : Nat)
  /-- A processor that one thread is in was entered by another. -/
  | crossThreadAccess (owner caller : ThreadId)
  /-- A yield would have to cross a call that the host is waiting for. -/
  | yieldAcrossHostCall
  | coroutineDead
  | coroutineNotSuspended (status : CoroutineStatus)
  | stackOverflow (capacity : Nat)
  /-- A frame reached for a slot outside its window. -/
  | invalidStackAccess (slot : Nat)
  /-- A processor that is already in use was asked for through its handle. -/
  | processorBusy
  /-- Raised by the script itself, or by one of its instructions. -/
  | runtime (message : String)
  deriving DecidableEq, Repr

namespace ScriptError

/-- The words for an error. -/
def message : ScriptError → String
  | .notCallable typeName => s!"attempt to call a {typeName} value"
  | .undefinedFunction function => s!"function #{function} has no compiled entry point"
  | .crossThreadAccess owner caller =>
    s!"cannot enter the same processor from two different threads: {owner} and {caller}"
  | .yieldAcrossHostCall => "attempt to yield across a host-call boundary"
  | .coroutineDead => "cannot resume dead coroutine"
  | .coroutineNotSuspended status =>
    s!"cannot resume non-suspended coroutine (state: {status.name})"
  | .stackOverflow capacity => s!"stack overflow (capacity {capacity})"
  | .invalidStackAccess slot => s!"invalid stack access at slot {slot}"
  | .processorBusy => "processor is busy; reenter through the execution context"
  | .runtime message => message

/-- Whether a script may not catch the error, because the processor is no longer to be trusted. -/
def isFatal : ScriptError → Bool
  | .crossThreadAccess _ _ | .invalidStackAccess _ => true
  | _ => false

end ScriptError

end CoroutineVM
