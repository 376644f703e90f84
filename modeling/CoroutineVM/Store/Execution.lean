import CoroutineVM.Store.Basic

/-!
What one instruction does.

An instruction works on one processor and on what is shared. Most of them end by saying where the
code goes on; a return to the host, a yield, a call of a host function and a resume leave the code,
and what happens then is decided by the machine.
-/

namespace CoroutineVM

/-- The value of a literal operand. -/
def Constant.value : Constant → Value
  | .nil => .nil
  | .boolean value => .boolean value
  | .number value => .number value
  | .string value => .string value

/-- How an instruction ends. -/
inductive Flow where
  /-- The code goes on here. -/
  | goto (pointer : Nat)
  /-- The frame that the host entered has returned. -/
  | returned (value : Value)
  /-- The coroutine stops, to go on at `resumeAt`. -/
  | yielded (value : Value) (resumeAt : Nat)
  /-- A host function is called, whose result is pushed before the code goes on. -/
  | callHost (function : HostFunction) (arguments : List Value) (resumeAt : Nat)
  /-- A coroutine is resumed, whose outcome is pushed before the code goes on. -/
  | resume (target : CoroutineId) (arguments : List Value) (resumeAt : Nat)

namespace Store

open Attempt

/-- The cell that a capture puts into a new closure. -/
def capture (id : CoroutineId) : Capture → Attempt Store CellId
  | .copyLocal index => do createCell (← onProcessor id (Processor.loadLocal index)).collapse
  | .shareUpvalue index => onProcessor id (Processor.upvalueCell index)

/-- The sum or difference of the two top values. -/
def arithmetic (id : CoroutineId) (verb : String) (operation : Float → Float → Float) :
    Attempt Store Unit :=
  onProcessor id do
    let (first, second) ← Processor.popOperands
    match first, second with
    | .number x, .number y => Processor.push (.number (operation x y))
    | first, second =>
      fail (.runtime s!"attempt to {verb} a {first.typeName} with a {second.typeName}")

/-- Whether the first of the two top values is the lesser one: of two numbers by size, of two
strings by their characters. -/
def compare (id : CoroutineId) : Attempt Store Unit :=
  onProcessor id do
    let (first, second) ← Processor.popOperands
    match first, second with
    | .number x, .number y => Processor.push (.boolean (decide (x < y)))
    | .string s, .string t => Processor.push (.boolean (decide (s < t)))
    | first, second =>
      fail (.runtime s!"attempt to compare {first.typeName} with {second.typeName}")

/-- Whether a value can be part of a concatenation. -/
def isText : Value → Bool
  | .string _ | .number _ => true
  | _ => false

/-- The texts of the two top values, one after the other. -/
def concat (id : CoroutineId) : Attempt Store Unit :=
  onProcessor id do
    let (first, second) ← Processor.popOperands
    if !isText first then fail (.runtime s!"attempt to concatenate a {first.typeName} value")
    else if !isText second then
      fail (.runtime s!"attempt to concatenate a {second.typeName} value")
    else Processor.push (.string (first.display ++ second.display))

/-- Calls the value below the top `count` values: a closure gets a frame, a host function is left to
the machine. -/
def call (id : CoroutineId) (count next : Nat) : Attempt Store Flow := do
  let arguments ← onProcessor id (Processor.popMany count)
  let arguments := Value.spread arguments
  let callee ← onProcessor id Processor.pop
  match callee.collapse with
  | .closure closure =>
    let entryPoint ← check fun store => store.chunk.entryPoint closure
    onProcessor id do
      Processor.push (.closure closure)
      Processor.pushArguments arguments
      Processor.pushFrame closure entryPoint (.instruction next)
    return .goto entryPoint
  | .host function => return .callHost function arguments next
  | other => fail (.notCallable other.typeName)

/-- Returns the top `count` values from the top frame. -/
def leaveFrame (id : CoroutineId) (count : Nat) : Attempt Store Flow :=
  onProcessor id do
    let value ← Processor.popResult count
    let frame ← Processor.popFrame
    match frame.returnPoint with
    | .host => return .returned value
    | .instruction pointer =>
      Processor.push value
      return .goto pointer

/-- The coroutine that an instruction named `action` works on, taken from the stack. -/
def popCoroutine (id : CoroutineId) (action : String) : Attempt Store CoroutineId := do
  let value ← onProcessor id Processor.pop
  match value.collapse with
  | .coroutine target => return target
  | other =>
    fail (.runtime
      s!"bad argument #1 to '{action}' (coroutine expected, got {other.typeName})")

/-- Carries out one instruction on the processor of `id`; `next` is the place after it. -/
def execute (id : CoroutineId) (instruction : Instruction) (next : Nat) : Attempt Store Flow :=
  match instruction with
  | .nop => return .goto next
  | .literal constant => do
    onProcessor id (Processor.push constant.value)
    return .goto next
  | .pop => do
    let _ ← onProcessor id Processor.pop
    return .goto next
  | .arguments => do
    let chunk ← read Store.chunk
    onProcessor id (Processor.copyArguments chunk)
    return .goto next
  | .loadLocal index => do
    onProcessor id do Processor.push (← Processor.loadLocal index)
    return .goto next
  | .storeLocal index => do
    onProcessor id do
      let value ← Processor.pop
      Processor.storeLocal index value.collapse
    return .goto next
  | .loadUpvalue index => do
    let cell ← onProcessor id (Processor.upvalueCell index)
    let value ← read (Store.readCell · cell)
    onProcessor id (Processor.push value)
    return .goto next
  | .storeUpvalue index => do
    let value ← onProcessor id Processor.pop
    let cell ← onProcessor id (Processor.upvalueCell index)
    modify (writeCell cell value.collapse)
    return .goto next
  | .loadGlobal name => do
    let value ← read (Store.getGlobal · name)
    onProcessor id (Processor.push value)
    return .goto next
  | .storeGlobal name => do
    let value ← onProcessor id Processor.pop
    modify (setGlobal name value)
    return .goto next
  | .makeClosure function captures => do
    let cells ← mapEach (capture id) captures
    let closure ← createClosure function cells
    onProcessor id (Processor.push (.closure closure))
    return .goto next
  | .call count => call id count next
  | .ret count => leaveFrame id count
  | .yield count => do
    let mayYield ← read fun store => (store.processor id).mayYield
    if mayYield then
      let value ← onProcessor id (Processor.popResult count)
      return .yielded value next
    else fail .yieldAcrossHostCall
  | .tuple count => do
    onProcessor id do
      let values ← Processor.popMany count
      Processor.push (.tuple (Value.spread values))
    return .goto next
  | .jump target => return .goto target
  | .jumpIfFalse target => do
    let value ← onProcessor id Processor.pop
    return .goto (if value.isTruthy then next else target)
  | .add => do
    arithmetic id "add" (· + ·)
    return .goto next
  | .subtract => do
    arithmetic id "subtract" (· - ·)
    return .goto next
  | .less => do
    compare id
    return .goto next
  | .equal => do
    onProcessor id do
      let (first, second) ← Processor.popOperands
      Processor.push (.boolean (first.same second))
    return .goto next
  | .not => do
    onProcessor id do
      let value ← Processor.pop
      Processor.push (.boolean !value.isTruthy)
    return .goto next
  | .concat => do
    concat id
    return .goto next
  | .raise => do
    let value ← onProcessor id Processor.pop
    fail (.runtime value.collapse.display)
  | .createCoroutine => do
    let function ← onProcessor id Processor.pop
    let created ← spawn id function.collapse
    onProcessor id (Processor.push (.coroutine created))
    return .goto next
  | .resumeCoroutine count => do
    let arguments ← onProcessor id (Processor.popMany count)
    let target ← popCoroutine id "resume"
    return .resume target (Value.spread arguments) next
  | .coroutineStatus => do
    let target ← popCoroutine id "status"
    let status ← read (Store.status · target)
    onProcessor id (Processor.push (.string status.name))
    return .goto next
  | .currentCoroutine => do
    onProcessor id (Processor.push (.coroutine id))
    return .goto next

end Store

end CoroutineVM
