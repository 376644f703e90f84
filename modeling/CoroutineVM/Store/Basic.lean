import CoroutineVM.Counters
import CoroutineVM.Processor.Basic
import CoroutineVM.Settings.Basic
import CoroutineVM.Table

/-!
The store of a script: everything that its processors share, and the processors themselves.

Objects are named by their place. Coroutine 0 wraps the script's own processor and table 0 holds the
globals. A name that no object has reads as an object that can do nothing: a dead coroutine, an
empty table, a cell that holds nil.
-/

namespace CoroutineVM

/-- Whether a processor can be had through its handle. -/
inductive Access where
  /-- Nobody uses the processor. -/
  | free
  /-- Someone looks at the processor, so that nobody may run it. -/
  | held
  /-- The processor runs. -/
  | executing
  deriving DecidableEq, Repr

/-- A processor with its handle. The status belongs to the handle, so that it can be read while the
processor runs. -/
structure Coroutine where
  status : CoroutineStatus
  access : Access
  /-- The coroutine that created this one; the main one has none. -/
  parent : Option CoroutineId
  processor : Processor

namespace Coroutine

/-- What a name without a coroutine stands for. -/
def gone : Coroutine := ⟨.dead, .free, none, .idle 0 0 none⟩

/-- Whether this is the script's own coroutine. -/
def isMain (coroutine : Coroutine) : Bool := coroutine.parent.isNone

end Coroutine

/-- Names receivers of the signal that an execution has ended. -/
abbrev DebuggerId := Nat

/-- All that a script consists of but for what is done next: what its coroutines, tables and cells
hold, and how it has been set up. -/
structure Store where
  chunk : Chunk
  settings : Settings
  tables : Tables
  cells : Array Value
  /-- The name of the next scope. -/
  nextScope : ScopeId
  coroutines : Array Coroutine
  counters : Counters
  debugger : Option DebuggerId
  /-- The thread that script code runs on. -/
  thread : ThreadId

namespace Store

/-- The script's own coroutine. -/
def main : CoroutineId := 0

/-- The table of the globals. -/
def globals : TableId := 0

/-- A store in which nothing has run yet. -/
def initial (chunk : Chunk) (settings : Settings) (thread : ThreadId) : Store where
  chunk := chunk
  settings := settings
  tables := ⟨#[.empty]⟩
  cells := #[]
  nextScope := 0
  coroutines :=
    #[⟨.main, .free, none, .idle settings.valueCapacity settings.frameCapacity none⟩]
  counters := .zero settings.counting
  debugger := none
  thread := thread

/-- The coroutine of this name. A name that has not been given yet names one that is gone. -/
def coroutine (store : Store) (id : CoroutineId) : Coroutine := store.coroutines[id]?.getD .gone

def processor (store : Store) (id : CoroutineId) : Processor := (store.coroutine id).processor

def status (store : Store) (id : CoroutineId) : CoroutineStatus := (store.coroutine id).status

def access (store : Store) (id : CoroutineId) : Access := (store.coroutine id).access

/-- Changes one coroutine. -/
def modifyCoroutine (id : CoroutineId) (change : Coroutine → Coroutine) (store : Store) : Store :=
  { store with coroutines := store.coroutines.modify id change }

def setStatus (id : CoroutineId) (status : CoroutineStatus) : Store → Store :=
  modifyCoroutine id ({ · with status := status })

def setAccess (id : CoroutineId) (access : Access) : Store → Store :=
  modifyCoroutine id ({ · with access := access })

/-- Changes the processor of one coroutine and nothing else of it. -/
def modifyProcessor (id : CoroutineId) (change : Processor → Processor) : Store → Store :=
  modifyCoroutine id fun coroutine =>
    { coroutine with processor := change coroutine.processor }

def setGuard (id : CoroutineId) (guard : ThreadGuard) : Store → Store :=
  modifyProcessor id ({ · with guard := guard })

/-- An attempt on the processor of a coroutine that has been taken out of the others, and the others
with the coroutine back in its place. -/
@[noinline]
def onTaken {α : Type} (id : CoroutineId) (attempt : Attempt Processor α) (taken : Coroutine)
    (others : Array Coroutine) : Except ScriptError α × Array Coroutine :=
  match taken with
  | ⟨status, access, parent, processor⟩ =>
    match attempt processor with
    | (result, processor) =>
      (result, others.setIfInBounds id ⟨status, access, parent, processor⟩)

/-- An attempt on one processor. The coroutine is taken out of the store meanwhile, so that its
stacks have one owner and can be changed in place. -/
def onProcessor {α : Type} (id : CoroutineId) (attempt : Attempt Processor α) :
    Attempt Store α := fun store =>
  match store with
  | ⟨chunk, settings, tables, cells, nextScope, coroutines, counters, debugger, thread⟩ =>
    if inside : id < coroutines.size then
      match onTaken id attempt coroutines[id] (coroutines.set id .gone) with
      | (result, coroutines) =>
        (result,
          ⟨chunk, settings, tables, cells, nextScope, coroutines, counters, debugger, thread⟩)
    else
      ((attempt Coroutine.gone.processor).1,
        ⟨chunk, settings, tables, cells, nextScope, coroutines, counters, debugger, thread⟩)

/-! ### Globals, cells and scopes -/

def getGlobal (store : Store) (name : String) : Value := store.tables.get globals name

def setGlobal (name : String) (value : Value) (store : Store) : Store :=
  { store with tables := store.tables.set globals name value }

/-- Makes a host function reachable by its name. -/
def register (function : HostFunction) : Store → Store :=
  setGlobal function.name (.host function)

/-- What is in a cell; nil if there is no such cell. -/
def readCell (store : Store) (cell : CellId) : Value := store.cells[cell]?.getD .nil

/-- Puts a value into a cell that is there. -/
def writeCell (cell : CellId) (value : Value) (store : Store) : Store :=
  { store with cells := store.cells.setIfInBounds cell value }

/-- A new cell and its name. -/
def createCell (value : Value) : Attempt Store CellId := fun store =>
  (.ok store.cells.size, { store with cells := store.cells.push value })

/-- A closure over a function in a new scope with these cells. -/
def createClosure (function : Nat) (cells : List CellId) : Attempt Store Closure := fun store =>
  (.ok ⟨function, ⟨store.nextScope, cells⟩⟩, { store with nextScope := store.nextScope + 1 })

/-! ### Coroutines -/

/-- Creates a coroutine that will run the given function. Only a closure of a function that the
chunk defines will do. -/
def spawn (parent : CoroutineId) (function : Value) : Attempt Store CoroutineId :=
  match function with
  | .closure closure => do
    let _ ← Attempt.check fun store : Store => store.chunk.entryPoint closure
    fun store =>
      let processor :=
        Processor.idle store.settings.valueCapacity store.settings.frameCapacity (some closure)
      (.ok store.coroutines.size,
        { store with
          coroutines := store.coroutines.push ⟨.notStarted, .free, some parent, processor⟩ })
  | other => Attempt.fail (.notCallable other.typeName)

/-- Creates a coroutine from outside of any processor; the function may come as a tuple. -/
def createCoroutine (function : Value) : Attempt Store CoroutineId := spawn main function.collapse

end Store

end CoroutineVM
