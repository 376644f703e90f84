/-!
How often script code was entered.

Calls and resumes are counted when they end. A stopwatch is handed out when one begins, unless
counting is off, and is counted when it is stopped, also after a reset in between.
-/

namespace CoroutineVM

/-- What is counted. -/
inductive Counter where
  /-- Calls from the host into script code. -/
  | execution
  /-- Resumes of coroutines. -/
  | resume
  deriving DecidableEq, Repr

def Counter.name : Counter → String
  | .execution => "Execution"
  | .resume => "Resume"

/-- A running count of one kind. -/
structure Stopwatch where
  counter : Counter
  deriving DecidableEq, Repr

/-- What has been counted since the last reset, and whether there is counting at all. -/
structure Counters where
  enabled : Bool
  executions : Nat
  resumes : Nat
  deriving DecidableEq, Repr

namespace Counters

def zero (enabled : Bool) : Counters := ⟨enabled, 0, 0⟩

def count (counters : Counters) : Counter → Nat
  | .execution => counters.executions
  | .resume => counters.resumes

/-- A stopwatch, if counting is on. -/
def start? (counters : Counters) (counter : Counter) : Option Stopwatch :=
  if counters.enabled then some ⟨counter⟩ else none

/-- Counts a stopwatch that ends. -/
def stop (counters : Counters) (stopwatch : Stopwatch) : Counters :=
  match stopwatch.counter with
  | .execution => { counters with executions := counters.executions + 1 }
  | .resume => { counters with resumes := counters.resumes + 1 }

def reset (counters : Counters) : Counters := zero counters.enabled

end Counters

end CoroutineVM
