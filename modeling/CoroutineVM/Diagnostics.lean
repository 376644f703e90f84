import CoroutineVM.Store.Basic

/-!
What a debugger shows: frames by the names of their functions, and one-line descriptions of host
functions, coroutines and of the debugger itself.
-/

namespace CoroutineVM

/-- One row of a call stack. -/
structure StackRow where
  functionName : String
  entryPoint : Nat
  base : Nat
  returnPoint : ReturnPoint

/-- Whether the host entered the frame. -/
def StackRow.isHostBoundary (row : StackRow) : Bool := row.returnPoint == .host

/-- The name of a function; one that the chunk lacks is named by its number. -/
def Chunk.functionName (chunk : Chunk) (function : Nat) : String :=
  match chunk.function? function with
  | some found => found.name
  | none => s!"#{function}"

/-- The frames of a processor, innermost first. -/
def Store.callStack (store : Store) (id : CoroutineId) : List StackRow :=
  (store.processor id).frames.toList.reverse.map fun frame =>
    ⟨store.chunk.functionName frame.function, frame.entryPoint, frame.base, frame.returnPoint⟩

/-- A character inside a quoted description. -/
def quotedChar (c : Char) : List Char :=
  match c with
  | '"' => ['\\', '"']
  | '\\' => ['\\', '\\']
  | '\n' => ['\\', 'n']
  | '\r' => ['\\', 'r']
  | '\t' => ['\\', 't']
  | '\x00' => ['\\', '0']
  | c =>
    if c.toNat < 0x20 ∨ c.toNat = 0x7f then
      ['\\', 'u', '\x7b'] ++ Nat.toDigits 16 c.toNat ++ ['\x7d']
    else [c]

/-- A text in quotes. -/
def quoted (text : String) : String :=
  String.ofList ('"' :: (text.toList.flatMap quotedChar ++ ['"']))

def HostFunction.description (function : HostFunction) : String :=
  "HostFunction \x7b name: " ++ quoted function.name ++ " \x7d"

/-- The word for a status in a description. -/
def CoroutineStatus.word : CoroutineStatus → String
  | .main => "Main"
  | .notStarted => "NotStarted"
  | .running => "Running"
  | .normal => "Normal"
  | .suspended => "Suspended"
  | .dead => "Dead"

/-- A coroutine by its identity and its status. -/
def Store.coroutineDescription (store : Store) (id : CoroutineId) : String :=
  "Coroutine \x7b id: " ++ identityText id ++ ", state: " ++ (store.status id).word ++ " \x7d"

/-- Whether somebody is told about ends of executions. -/
def Store.debuggerDescription (store : Store) : String :=
  "DebugContext \x7b attached: " ++ (if store.debugger.isSome then "true" else "false") ++ " \x7d"

end CoroutineVM
