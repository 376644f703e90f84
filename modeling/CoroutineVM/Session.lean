import CoroutineVM.Machine.Step

/-!
A script and its host, seen from outside.

Between two uses of a script nothing runs, and its host does one thing at a time: it calls a
function, resumes a coroutine, or changes something. Each of these is an operation, and whatever it
leads to is over before the next one. A value can be left on top of the script's own stack to be
called from there.
-/

namespace CoroutineVM

/-- What a host does with a script. -/
inductive Operation where
  /-- To call a function on the script's own processor. -/
  | call (callee : Value) (arguments : List Value)
  /-- To call the value on top of the stack of the script's own processor. -/
  | callTop (arguments : List Value)
  /-- To put a value on the stack of the script's own processor. -/
  | push (value : Value)
  /-- To resume a coroutine; nobody becomes normal for it. -/
  | resume (target : CoroutineId) (arguments : List Value)
  | create (function : Value)
  | edit (change : Edit)

namespace Operation

/-- Whether the guard of a processor is operated by hand. -/
def touchesGuard : Operation → Bool
  | .edit change => change.touchesGuard
  | _ => false

/-- Whether the callee comes from the top of the stack. -/
def isCallTop : Operation → Bool
  | .callTop _ => true
  | _ => false

/-- A value on top of the script's own stack. -/
def pushMain (value : Value) (store : Store) : Turn :=
  match Store.onProcessor Store.main (Processor.push value) store with
  | (result, store) => ⟨store, .settled (result.map fun _ => .returned .nil), []⟩

/-- What an operation leads to. Those that enter no script code are over at once. -/
def begin (operation : Operation) (store : Store) : Turn :=
  match operation with
  | .call callee arguments => store.beginScriptCall callee arguments
  | .callTop arguments =>
    Store.borrowing Store.main (Store.beginCall Store.main none arguments) store
  | .push value => Store.borrowing Store.main (pushMain value) store
  | .resume target arguments => store.beginResume target arguments
  | .create function =>
    match Store.createCoroutine function store with
    | (created, store) => ⟨store, .settled (created.map fun id => .returned (.coroutine id)), []⟩
  | .edit change => ⟨store.edit change, .settled (.ok (.returned .nil)), []⟩

end Operation

end CoroutineVM
