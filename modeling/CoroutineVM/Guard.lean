import CoroutineVM.Error

/-!
One thread at a time.

A guard belongs to the first thread that enters it, until that thread has left as often as it has
entered. Another thread is turned away at once and changes nothing. Entering again from the owning
thread makes the nesting deeper.
-/

namespace CoroutineVM

/-- Which thread is in a processor, and how many times it has entered without leaving. -/
structure ThreadGuard where
  owner : Option ThreadId
  nesting : Nat
  deriving DecidableEq, Repr

namespace ThreadGuard

def free : ThreadGuard := ⟨none, 0⟩

/-- The guard one level deeper, or the refusal of a thread that does not own it. -/
def enter (guard : ThreadGuard) (caller : ThreadId) : Except ScriptError ThreadGuard :=
  match guard.owner with
  | none => .ok ⟨some caller, guard.nesting + 1⟩
  | some owner =>
    if owner = caller then .ok ⟨some caller, guard.nesting + 1⟩
    else .error (.crossThreadAccess owner caller)

/-- The guard one level up, and whether that was the outermost level, which frees the guard. -/
def leave (guard : ThreadGuard) : Bool × ThreadGuard :=
  match guard.nesting with
  | 0 => (false, guard)
  | 1 => (true, free)
  | nesting + 2 => (false, { guard with nesting := nesting + 1 })

end ThreadGuard

end CoroutineVM
