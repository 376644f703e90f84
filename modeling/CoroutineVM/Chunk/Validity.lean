import CoroutineVM.Chunk.Basic
import CoroutineVM.Json.Basic

/-!
What makes a chunk fit to be run, and the first thing that is wrong with one that is not.

The function table is checked before the code, each from its first entry on.
-/

namespace CoroutineVM

/-- Why a chunk was not loaded. -/
inductive LoadError where
  | unreadable (fault : Fault)
  | noFunctions
  | entryPointOutOfRange (name : String) (entryPoint length : Nat)
  | jumpOutOfRange (place target length : Nat)
  | undefinedFunction (place function : Nat)
  deriving DecidableEq, Repr

/-- The words for what is wrong with a readable chunk; an unreadable text has none of its own. -/
def LoadError.message : LoadError → String
  | .unreadable _ => "failed to parse chunk"
  | .noFunctions => "chunk defines no functions"
  | .entryPointOutOfRange name entryPoint length =>
    s!"function '{name}' has entry point {entryPoint} outside the code ({length} instructions)"
  | .jumpOutOfRange place target length =>
    s!"instruction {place} jumps to {target}, outside the code ({length} instructions)"
  | .undefinedFunction place function =>
    s!"instruction {place} references undefined function #{function}"

namespace Chunk

/-- The fault of a function whose code begins outside the chunk's code. -/
def functionFault? (length : Nat) (function : FunctionEntry) : Option LoadError :=
  if length ≤ function.entryPoint then
    some (.entryPointOutOfRange function.name function.entryPoint length)
  else none

/-- The fault of an instruction that leaves the code or names a function the table lacks. -/
def instructionFault? (length functions place : Nat) (instruction : Instruction) :
    Option LoadError :=
  match instruction with
  | .jump target | .jumpIfFalse target =>
    if length ≤ target then some (.jumpOutOfRange place target length) else none
  | .makeClosure function _ =>
    if functions ≤ function then some (.undefinedFunction place function) else none
  | _ => none

/-- The first fault in the code from `place` on. -/
def codeFault? (length functions : Nat) : Nat → List Instruction → Option LoadError
  | _, [] => none
  | place, instruction :: rest =>
    (instructionFault? length functions place instruction).or
      (codeFault? length functions (place + 1) rest)

/-- The first fault of a chunk. -/
def fault? (chunk : Chunk) : Option LoadError :=
  if chunk.functions.isEmpty then some .noFunctions
  else
    (chunk.functions.toList.findSome? (functionFault? chunk.code.size)).or
      (codeFault? chunk.code.size chunk.functions.size 0 chunk.code.toList)

/-- Accepts a chunk that has no fault. -/
def validate (chunk : Chunk) : Except LoadError Unit :=
  match chunk.fault? with
  | some fault => .error fault
  | none => .ok ()

end Chunk

end CoroutineVM
