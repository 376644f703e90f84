import CoroutineVM.Error

/-!
Attempts: computations on a state that may fail.

The state that was reached is kept when an attempt fails, because what an instruction did before it
failed can be seen afterwards.
-/

namespace CoroutineVM

/-- A computation on a state, with a result or an error and the state it leaves in both cases. -/
def Attempt (σ α : Type) : Type := σ → Except ScriptError α × σ

namespace Attempt

variable {σ α β : Type}

/-- Runs an attempt on a state. -/
@[inline]
def run (attempt : Attempt σ α) (state : σ) : Except ScriptError α × σ := attempt state

/-- Runs a second attempt with the result of the first, unless that failed. -/
@[inline]
def andThen (first : Attempt σ α) (second : α → Attempt σ β) : Attempt σ β := fun state =>
  match first state with
  | (.ok result, state) => second result state
  | (.error error, state) => (.error error, state)

@[inline]
def succeed (result : α) : Attempt σ α := fun state => (.ok result, state)

@[inline]
def fail (error : ScriptError) : Attempt σ α := fun state => (.error error, state)

@[always_inline]
instance : Monad (Attempt σ) where
  pure := succeed
  bind := andThen

/-- Looks at the state. -/
@[inline]
def read (look : σ → α) : Attempt σ α := fun state => (.ok (look state), state)

/-- Looks at the state for something that may be an error. -/
@[inline]
def check (look : σ → Except ScriptError α) : Attempt σ α := fun state => (look state, state)

/-- Changes the state. -/
@[inline]
def modify (change : σ → σ) : Attempt σ Unit := fun state => (.ok (), change state)

/-- Runs an attempt for each item of a list and collects the results. -/
def mapEach (attempt : α → Attempt σ β) : List α → Attempt σ (List β)
  | [] => succeed []
  | item :: rest => do
    let result ← attempt item
    let results ← mapEach attempt rest
    return result :: results

/-- Runs an attempt for each item of a list. -/
def forEach (attempt : α → Attempt σ Unit) : List α → Attempt σ Unit
  | [] => succeed ()
  | item :: rest => do
    attempt item
    forEach attempt rest

end Attempt

end CoroutineVM
