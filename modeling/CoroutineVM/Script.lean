import CoroutineVM.Machine.Step

/-!
A script as its host uses it from outside.

Everything here starts from a store and a world at rest and carries an entry through to its outcome.
A run that takes more steps than anyone will wait for has no outcome.
-/

namespace CoroutineVM.Script

variable {W : Type}

/-- What a use of a script comes to, with the store and the world after it. -/
structure Result (W : Type) where
  outcome : Option Outcome
  store : Store
  world : W

/-- The steps that a run may take. -/
def patience : Nat := Nat.pow 2 60

/-- Carries an entry through. -/
def settle (host : Host W) (turn : Turn) (world : W) : Result W :=
  let machine := Machine.run host patience (Machine.enter turn world [])
  ⟨machine.outcome?, machine.store, machine.world⟩

/-- The main body of the chunk, as a function in a new empty scope. -/
def mainFunction : Attempt Store Value := do return .closure (← Store.createClosure 0 [])

/-- Calls a function on the script's own processor. -/
def call (host : Host W) (callee : Value) (arguments : List Value) (store : Store) (world : W) :
    Result W :=
  settle host (store.beginScriptCall callee arguments) world

/-- Runs the main body. -/
def run (host : Host W) (store : Store) (world : W) : Result W :=
  match mainFunction store with
  | (.ok body, store) => call host body [] store world
  | (.error error, store) => ⟨some (.error error), store, world⟩

/-- Calls the function that a global holds. -/
def callGlobal (host : Host W) (name : String) (arguments : List Value) (store : Store)
    (world : W) : Result W :=
  match store.getGlobal name with
  | .nil => ⟨some (.error (.runtime s!"global '{name}' is not defined")), store, world⟩
  | callee => call host callee arguments store world

/-- Resumes a coroutine; nobody becomes normal for it. -/
def resume (host : Host W) (target : CoroutineId) (arguments : List Value) (store : Store)
    (world : W) : Result W :=
  settle host (store.beginResume target arguments) world

end CoroutineVM.Script
