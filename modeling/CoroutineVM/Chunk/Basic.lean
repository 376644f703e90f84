/-!
Compiled chunks.

A chunk is a flat list of instructions and a table of functions, each with the place in the code
where it begins. Function 0 is the main body. Operands are natural numbers; the chunk text holds
those that fit 64 bits.
-/

namespace CoroutineVM

/-- A literal operand. -/
inductive Constant where
  | nil
  | boolean (value : Bool)
  | number (value : Float)
  | string (value : String)
  deriving DecidableEq

/-- Where a new closure takes one of its cells from: a fresh cell with a copy of a local, or the
very cell that the running closure holds. -/
inductive Capture where
  | copyLocal (index : Nat)
  | shareUpvalue (index : Nat)
  deriving DecidableEq, Repr

/-- What code consists of. Operands that are numbers count values or name slots, functions and
places. -/
inductive Instruction where
  | nop
  /-- Push a constant. -/
  | literal (value : Constant)
  /-- Drop the top value. -/
  | pop
  /-- Copy the frame's arguments into its first locals. -/
  | arguments
  | loadLocal (index : Nat)
  | storeLocal (index : Nat)
  | loadUpvalue (index : Nat)
  | storeUpvalue (index : Nat)
  | loadGlobal (name : String)
  | storeGlobal (name : String)
  | makeClosure (function : Nat) (captures : List Capture)
  /-- Call the value below the top `count` values with them as arguments. -/
  | call (count : Nat)
  /-- Return the top `count` values; nil when there is none. -/
  | ret (count : Nat)
  /-- Yield the top `count` values; the values of the next resume take their place. -/
  | yield (count : Nat)
  /-- Pack the top `count` values into one tuple. -/
  | tuple (count : Nat)
  | jump (target : Nat)
  | jumpIfFalse (target : Nat)
  | add
  | subtract
  | less
  | equal
  | not
  | concat
  /-- Raise the top value as an error. -/
  | raise
  /-- Turn the function on top into a new coroutine. -/
  | createCoroutine
  /-- Resume the coroutine below the top `count` values with them as arguments. -/
  | resumeCoroutine (count : Nat)
  | coroutineStatus
  /-- Push the running coroutine. -/
  | currentCoroutine
  deriving DecidableEq

/-- Where an instruction may continue besides the next one. -/
def Instruction.jumpTarget? : Instruction → Option Nat
  | .jump target | .jumpIfFalse target => some target
  | _ => none

/-- What is known of one function: where its code begins and how it receives arguments. A variadic
function gets the arguments after its parameters as one tuple. -/
structure FunctionEntry where
  name : String
  entryPoint : Nat
  parameters : Nat
  variadic : Bool
  deriving DecidableEq, Repr

/-- A unit of code together with the functions that begin in it. Function zero is the main body. -/
structure Chunk where
  functions : Array FunctionEntry
  code : Array Instruction
  deriving DecidableEq

/-- The function of this number, if the chunk defines it. -/
def Chunk.function? (chunk : Chunk) (index : Nat) : Option FunctionEntry := chunk.functions[index]?

/-- The instruction at this place, if the code reaches that far. -/
def Chunk.instruction? (chunk : Chunk) (pointer : Nat) : Option Instruction := chunk.code[pointer]?

end CoroutineVM
