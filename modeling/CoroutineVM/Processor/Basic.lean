import CoroutineVM.Attempt
import CoroutineVM.Chunk.Basic
import CoroutineVM.Guard
import CoroutineVM.Stack
import CoroutineVM.Value.Arguments

/-!
Processors: a value stack, a frame stack and the few facts about where a run stands.

Around a frame the value stack holds

    callee, first argument .. last argument, number of arguments | locals and temporaries

and the bar is the frame's base. A frame takes and addresses values at or above its base only; the
exception is its own arguments, which it copies. The number of arguments says how far a return has
to drop.
-/

namespace CoroutineVM

/-- Where control goes when a frame returns. -/
inductive ReturnPoint where
  /-- The host entered the frame and gets its result. -/
  | host
  /-- A call instruction entered the frame; the code goes on here. -/
  | instruction (pointer : Nat)
  deriving DecidableEq, Repr

/-- A function that is running. -/
structure Frame where
  /-- The height of the value stack where the locals begin. -/
  base : Nat
  returnPoint : ReturnPoint
  scope : Scope
  /-- Where the function's code begins. -/
  entryPoint : Nat
  function : Nat
  deriving DecidableEq, Repr

/-- The slot that holds the number of arguments. -/
def Frame.countSlot (frame : Frame) : Nat := frame.base - 1

/-- What one coroutine computes with: two stacks, and what is needed to enter it. -/
structure Processor where
  values : BoundedStack Value
  frames : BoundedStack Frame
  /-- The function of a coroutine that has not started. -/
  entry : Option Closure
  mayYield : Bool
  /-- Where a suspended coroutine goes on. -/
  savedPointer : Option Nat
  guard : ThreadGuard

/-- The entry point of a closure's function. -/
def Chunk.entryPoint (chunk : Chunk) (closure : Closure) : Except ScriptError Nat :=
  match chunk.function? closure.function with
  | some function => .ok function.entryPoint
  | none => .error (.undefinedFunction closure.function)

namespace Processor

/-- An idle processor with empty stacks. -/
def idle (valueCapacity frameCapacity : Nat) (entry : Option Closure) : Processor where
  values := .empty valueCapacity
  frames := .empty frameCapacity
  entry := entry
  mayYield := true
  savedPointer := none
  guard := .free

/-- Slots are 64-bit numbers; counting down from the bottom wraps around. -/
def slotBound : Nat := Nat.pow 2 64

/-- The slot `count` below a height. -/
def slotBelow (height count : Nat) : Nat := (height + slotBound - count) % slotBound

/-- The base of the top frame; zero when there is no frame. -/
def base (processor : Processor) : Nat :=
  match processor.frames.top? with
  | some frame => frame.base
  | none => 0

/-- The top frame. -/
def currentFrame : Attempt Processor Frame :=
  .check fun processor =>
    match processor.frames.top? with
    | some frame => .ok frame
    | none => .error (.invalidStackAccess 0)

/-! ### Values -/

/-- Puts a value on top of the stack if there is room for it. -/
def push (value : Value) : Attempt Processor Unit := fun processor =>
  if processor.values.isFull then (.error (.stackOverflow processor.values.capacity), processor)
  else (.ok (), { processor with values := processor.values.append value })

/-- Takes the top value of the frame's window. -/
def pop : Attempt Processor Value := fun processor =>
  let height := processor.values.height
  if height ≤ processor.base then (.error (.invalidStackAccess (slotBelow height 1)), processor)
  else match processor.values.top? with
    | some value => (.ok value, { processor with values := processor.values.truncate (height - 1) })
    | none => (.error (.invalidStackAccess 0), processor)

/-- Takes the top values of the frame's window, the bottom one first. -/
def popMany (count : Nat) : Attempt Processor (List Value) := fun processor =>
  let height := processor.values.height
  if height < processor.base + count then
    (.error (.invalidStackAccess (slotBelow height count)), processor)
  else
    let taken := processor.values.topItems count
    (.ok taken, { processor with values := processor.values.truncate (height - count) })

/-- Takes the top values as the result of a return or a yield. A single value is taken as it is. -/
def popResult (count : Nat) : Attempt Processor Value :=
  match count with
  | 0 => return .nil
  | 1 => pop
  | count => do return .pack (Value.spread (← popMany count))

/-- Takes the two operands of an instruction, each collapsed; the second one lies on top. -/
def popOperands : Attempt Processor (Value × Value) := do
  let second ← pop
  let first ← pop
  return (first.collapse, second.collapse)

/-- The slot of a local. -/
def localSlot (index : Nat) : Attempt Processor Nat :=
  .check fun processor =>
    let slot := processor.base + index
    if slot < slotBound then .ok slot else .error (.invalidStackAccess index)

/-- The value of a local of the top frame. -/
def loadLocal (index : Nat) : Attempt Processor Value := do
  let slot ← localSlot index
  Attempt.check fun processor =>
    match processor.values.get? slot with
    | some value => .ok value
    | none => .error (.invalidStackAccess slot)

/-- Gives a local of the top frame a new value. -/
def storeLocal (index : Nat) (value : Value) : Attempt Processor Unit := do
  let slot ← localSlot index
  fun processor =>
    if slot < processor.values.height then
      (.ok (), { processor with values := processor.values.set slot value })
    else (.error (.invalidStackAccess slot), processor)

/-- The cell that the running closure holds at this place. -/
def upvalueCell (index : Nat) : Attempt Processor CellId := do
  let frame ← currentFrame
  match frame.scope.cells[index]? with
  | some cell => return cell
  | none => Attempt.fail (.runtime s!"upvalue #{index} is not captured")

/-! ### Frames -/

/-- The value that records a number of arguments. -/
def countValue (count : Nat) : Value := .number count.toUInt64.toFloat

/-- The number of arguments that a value records. -/
def countOf? : Value → Option Nat
  | .number x => if (0 : Float) ≤ x then some x.toUInt64.toNat else none
  | _ => none

/-- The number of a frame's arguments. -/
def argumentCount (frame : Frame) : Attempt Processor Nat :=
  .check fun processor =>
    match (processor.values.get? frame.countSlot).bind countOf? with
    | some count => .ok count
    | none => .error (.invalidStackAccess frame.countSlot)

/-- Pushes the values of an argument list and their number. -/
def pushArguments (arguments : List Value) : Attempt Processor Unit := do
  let spread := Value.spread arguments
  Attempt.forEach push spread
  push (countValue spread.length)

/-- Pushes a frame whose window starts on top of the value stack. -/
def pushFrame (closure : Closure) (entryPoint : Nat) (returnPoint : ReturnPoint) :
    Attempt Processor Unit := fun processor =>
  if processor.frames.isFull then (.error (.stackOverflow processor.frames.capacity), processor)
  else
    let frame : Frame :=
      ⟨processor.values.height, returnPoint, closure.scope, entryPoint, closure.function⟩
    (.ok (), { processor with frames := processor.frames.append frame })

/-- Takes the top frame and drops its callee, arguments and locals. The frame is gone also when its
arguments turn out not to be there. -/
def popFrame : Attempt Processor Frame := do
  let frame ← currentFrame
  Attempt.modify fun processor =>
    { processor with frames := processor.frames.truncate (processor.frames.height - 1) }
  let count ← argumentCount frame
  if frame.base < count + 2 then Attempt.fail (.invalidStackAccess frame.base)
  else
    Attempt.modify fun processor =>
      { processor with values := processor.values.truncate (frame.base - (count + 2)) }
    return frame

/-- Prepares a call from the host and gives the entry point. Without a callee the one on top of the
value stack is called; it is already in its place. -/
def enterFromHost (chunk : Chunk) (callee : Option Value) (arguments : List Value) :
    Attempt Processor Nat := do
  let called ← Attempt.read fun processor => callee.getD (processor.values.top?.getD .nil)
  match called.collapse with
  | .closure closure =>
    let entryPoint ← Attempt.check fun _ => chunk.entryPoint closure
    if callee.isSome then push (.closure closure)
    pushArguments arguments
    pushFrame closure entryPoint .host
    return entryPoint
  | _ => Attempt.fail (.notCallable called.typeName)

/-- Pushes the value of each parameter, in order, from the arguments that are left; nil where there
are none left. -/
def pushParameters (given : List Value) : Nat → Attempt Processor Unit
  | 0 => Attempt.succeed ()
  | parameters + 1 => do
    push (given.head?.getD .nil)
    pushParameters given.tail parameters

/-- Copies the arguments of the top frame into its window: one value per parameter, nil where the
call gave too few, and for a variadic function the others as one tuple. -/
def copyArguments (chunk : Chunk) : Attempt Processor Unit := do
  let frame ← currentFrame
  match chunk.function? frame.function with
  | none => Attempt.fail (.undefinedFunction frame.function)
  | some function =>
    let count ← argumentCount frame
    if frame.countSlot < count then Attempt.fail (.invalidStackAccess frame.countSlot)
    else
      let given ← Attempt.read fun processor =>
        (processor.values.items.extract (frame.countSlot - count) frame.countSlot).toList
      pushParameters given function.parameters
      if function.variadic then push (.tuple (given.drop function.parameters))

/-! ### Entry and exit -/

/-- Empties both stacks and forgets where to go on. -/
def clear (processor : Processor) : Processor :=
  { processor with
    values := processor.values.clear
    frames := processor.frames.clear
    savedPointer := none }

/-- Drops everything above the two heights and says whether a yield is allowed again. -/
def restore (valueHeight frameHeight : Nat) (mayYield : Bool) (processor : Processor) : Processor :=
  { processor with
    values := processor.values.truncate valueHeight
    frames := processor.frames.truncate frameHeight
    mayYield := mayYield }

/-- Prepares to go on: at the saved pointer, where the arguments become the value of the yield that
stopped it, or at the entry of a coroutine that has not started. -/
def enterFromResume (chunk : Chunk) (arguments : List Value) : Attempt Processor Nat :=
  fun processor =>
  match processor.savedPointer with
  | some pointer =>
    (do push (.pack (Value.spread arguments)); return pointer : Attempt Processor Nat)
      { processor with savedPointer := none }
  | none =>
    match processor.entry with
    | some closure =>
      enterFromHost chunk (some (.closure closure)) arguments { processor with entry := none }
    | none => (.error .coroutineDead, processor)

end Processor

end CoroutineVM
