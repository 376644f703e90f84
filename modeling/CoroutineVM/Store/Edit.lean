import CoroutineVM.Store.Basic

/-!
What a host changes without entering script code.

Tables, cells, scopes and the handles of coroutines are objects that a host may hold. It can write
to them and make new ones, keep a processor from running by looking at it, and let its threads enter
and leave the guard of a processor. Nothing here carries out code or touches a stack.
-/

namespace CoroutineVM

/-- What a host can change of a script without running code of it. -/
inductive Edit where
  | createTable
  /-- To store a value under a name; the globals are a table, too. -/
  | setEntry (table : TableId) (name : String) (value : Value)
  | createCell (value : Value)
  | writeCell (cell : CellId) (value : Value)
  /-- To make a scope, for a closure of the host's own. -/
  | createScope
  /-- To say who is told about the end of executions, if anyone is. -/
  | attach (debugger : Option DebuggerId)
  /-- To have the counters count from zero again. -/
  | resetCounters
  /-- To look at a processor, so that nobody may run it. -/
  | hold (id : CoroutineId)
  | letGo (id : CoroutineId)
  /-- To have a thread enter a processor, or leave it, without running anything. -/
  | enterGuard (id : CoroutineId) (thread : ThreadId)
  | leaveGuard (id : CoroutineId)

namespace Edit

/-- Whether the guard of a processor is operated by hand. -/
def touchesGuard : Edit → Bool
  | .enterGuard _ _ | .leaveGuard _ => true
  | _ => false

end Edit

namespace Store

/-- Someone begins to look at a processor, which is not possible while it runs. -/
def hold (id : CoroutineId) (store : Store) : Store :=
  if store.access id = .executing then store else store.setAccess id .held

/-- Nobody looks at a processor any more. -/
def letGo (id : CoroutineId) (store : Store) : Store :=
  if store.access id = .held then store.setAccess id .free else store

/-- A thread tries to enter a processor. -/
def enterGuard (id : CoroutineId) (thread : ThreadId) (store : Store) : Store :=
  match (store.processor id).guard.enter thread with
  | .ok guard => store.setGuard id guard
  | .error _ => store

def leaveGuard (id : CoroutineId) (store : Store) : Store :=
  store.setGuard id (store.processor id).guard.leave.2

/-- Carries out what a host changes. -/
def edit (store : Store) : Edit → Store
  | .createTable => { store with tables := store.tables.create.2 }
  | .setEntry table name value => { store with tables := store.tables.set table name value }
  | .createCell value => { store with cells := store.cells.push value }
  | .writeCell cell value => store.writeCell cell value
  | .createScope => { store with nextScope := store.nextScope + 1 }
  | .attach debugger => { store with debugger := debugger }
  | .resetCounters => { store with counters := store.counters.reset }
  | .hold id => store.hold id
  | .letGo id => store.letGo id
  | .enterGuard id thread => store.enterGuard id thread
  | .leaveGuard id => store.leaveGuard id

end Store

end CoroutineVM
