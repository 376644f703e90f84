import CoroutineVM.Proofs.Contents.Values
import CoroutineVM.Proofs.Machine.Entries
import CoroutineVM.Proofs.Machine.Runs
import CoroutineVM.Proofs.Number.ExactNaturals
import CoroutineVM.Proofs.Store.Underlay

/-!
# One calling convention

A closure is called by the host, by an instruction, or by the first resume of a coroutine. Given
room, each of them leaves `Processor.called` of the processor that it starts from: the closure, its
arguments and their number on top of the values, and a frame that begins above them. They differ in
what they take away before and in where the frame returns to. An instruction spreads its arguments
twice, which comes to the same as once.

What the arguments are copied into is read off the same slots. `Processor.bound` says what they
become, for any number of arguments and parameters.
-/

namespace CoroutineVM

namespace BoundedStack

variable {α : Type}

/-- Puts items on top, the last one uppermost. -/
def appendAll (stack : BoundedStack α) (items : List α) : BoundedStack α :=
  { stack with items := (stack.toList ++ items).toArray }

/-- The values that are put on top come last in the list. -/
@[simp]
theorem toList_appendAll (stack : BoundedStack α) (items : List α) :
    (stack.appendAll items).toList = stack.toList ++ items := rfl

/-- The capacity is a setting and does not grow with them. -/
@[simp]
theorem capacity_appendAll (stack : BoundedStack α) (items : List α) :
    (stack.appendAll items).capacity = stack.capacity := rfl

/-- The height grows by their number. -/
@[simp]
theorem height_appendAll (stack : BoundedStack α) (items : List α) :
    (stack.appendAll items).height = stack.height + items.length := by
  rw [← length_toList, toList_appendAll, List.length_append, length_toList]

/-- A single value is put on top as a list of one. -/
theorem append_eq (stack : BoundedStack α) (item : α) :
    stack.append item = stack.appendAll [item] :=
  ext_toList (toList_append stack item) rfl

/-- No values change nothing. -/
@[simp]
theorem appendAll_nil (stack : BoundedStack α) : stack.appendAll [] = stack :=
  ext_toList (List.append_nil _) rfl

/-- Values put on top one list after the other are there as one list. -/
@[simp]
theorem appendAll_appendAll (stack : BoundedStack α) (first second : List α) :
    (stack.appendAll first).appendAll second = stack.appendAll (first ++ second) :=
  ext_toList (List.append_assoc ..) rfl

/-- Items that are put back after everything from their place on has been dropped. -/
theorem appendAll_truncate {stack : BoundedStack α} {below items : List α}
    (split : stack.toList = below ++ items) :
    (stack.truncate below.length).appendAll items = stack := by
  refine ext_toList ?_ rfl
  rw [toList_appendAll, toList_truncate, split, List.take_left]

end BoundedStack

/-- What the parameters of a function become: an argument each, nil where there is none left, and
for a variadic function the other arguments as one tuple. -/
def FunctionEntry.bound (function : FunctionEntry) (arguments : List Value) : List Value :=
  (List.range function.parameters).map (fun index => arguments[index]?.getD .nil) ++
    if function.variadic then [.tuple (arguments.drop function.parameters)] else []

namespace Processor

variable {processor : Processor} {closure : Closure} {arguments : List Value}

/-- The processor with values on top of the others. -/
def stack (values : List Value) (processor : Processor) : Processor :=
  { processor with values := processor.values.appendAll values }

/-- The same for a processor, of which nothing else is changed. -/
@[simp]
theorem stack_stack (first second : List Value) (processor : Processor) :
    (processor.stack first).stack second = processor.stack (first ++ second) := by
  simp only [stack, BoundedStack.appendAll_appendAll]

/-- The processor without the values from this height on. -/
def lowered (height : Nat) (processor : Processor) : Processor :=
  { processor with values := processor.values.truncate height }

/-- Of two heights that a stack is taken down to the lower one decides. -/
theorem lowered_lowered {low high : Nat} (order : low ≤ high) (processor : Processor) :
    (processor.lowered high).lowered low = processor.lowered low := by
  simp only [lowered, BoundedStack.truncate_truncate, Nat.min_eq_left order]

/-- The slots of a call: the closure, its arguments one by one, and their number. -/
def slots (closure : Closure) (arguments : List Value) : List Value :=
  .closure closure :: (Value.spread arguments ++ [countValue (Value.spread arguments).length])

/-- A call takes one slot for the closure and one for the number, besides those of its arguments. -/
@[simp]
theorem length_slots (closure : Closure) (arguments : List Value) :
    (slots closure arguments).length = (Value.spread arguments).length + 2 := by
  simp [slots]

/-- The processor after a closure has been called on it. -/
def called (closure : Closure) (entryPoint : Nat) (arguments : List Value)
    (returnPoint : ReturnPoint) (processor : Processor) : Processor :=
  { processor.stack (slots closure arguments) with
    frames := processor.frames.append
      ⟨processor.values.height + (slots closure arguments).length, returnPoint, closure.scope,
        entryPoint, closure.function⟩ }

/-- There is room for the slots and the frame of a call. -/
structure RoomFor (arguments : List Value) (processor : Processor) : Prop where
  values : processor.values.height + (Value.spread arguments).length + 2 ≤ processor.values.capacity
  frames : processor.frames.height < processor.frames.capacity

/-! ### Pushing with room -/

/-- With room for it a value is pushed. -/
theorem push_stack (value : Value) (room : processor.values.height < processor.values.capacity) :
    push value processor = (.ok (), processor.stack [value]) := by
  have fits : processor.values.isFull = false := by
    rw [← Bool.not_eq_true, BoundedStack.isFull_iff]
    omega
  simp [push, fits, stack, BoundedStack.append_eq]

/-- With room for all of them, several values are pushed in order. The induction is on the values,
over all processors, since each push leaves less room. -/
theorem forEach_push_stack (values : List Value)
    (room : processor.values.height + values.length ≤ processor.values.capacity) :
    Attempt.forEach push values processor = (.ok (), processor.stack values) := by
  induction values generalizing processor with
  | nil => simp [Attempt.forEach, Attempt.succeed, stack]
  | cons value rest inductionHypothesis =>
    rw [List.length_cons] at room
    have pushed : push value processor = _ := push_stack value (by omega)
    have others : Attempt.forEach push rest (processor.stack [value]) = _ :=
      inductionHypothesis (by simp [stack]; omega)
    rw [Attempt.forEach, Attempt.bind_of_ok pushed, others, stack_stack, List.singleton_append]

/-- Arguments are pushed as what they spread to, with the number of that on top. -/
theorem pushArguments_stack (room : processor.values.height + (Value.spread arguments).length + 1 ≤
      processor.values.capacity) :
    pushArguments arguments processor = (.ok (), processor.stack
      (Value.spread arguments ++ [countValue (Value.spread arguments).length])) := by
  have pushed : Attempt.forEach push (Value.spread arguments) processor = _ :=
    forEach_push_stack _ (by omega)
  rw [pushArguments, Attempt.bind_of_ok pushed, push_stack _ (by simp [stack]; omega), stack_stack]

/-- The arguments and the frame of a call go on top of its closure. This is what all ways of calling
have in common. -/
theorem openFrame_called (closure : Closure) (entryPoint : Nat) (returnPoint : ReturnPoint)
    (room : processor.RoomFor arguments) :
    (do pushArguments arguments; pushFrame closure entryPoint returnPoint)
        (processor.stack [.closure closure]) =
      (.ok (), processor.called closure entryPoint arguments returnPoint) := by
  obtain ⟨values, frames⟩ := room
  have pushed : pushArguments arguments (processor.stack [.closure closure]) = _ :=
    pushArguments_stack (by simp [stack]; omega)
  rw [stack_stack, List.singleton_append] at pushed
  have fits : processor.frames.isFull = false := by
    rw [← Bool.not_eq_true, BoundedStack.isFull_iff]
    omega
  rw [Attempt.bind_of_ok pushed]
  simp [pushFrame, called, stack, slots, fits]

/-- Pushing the closure, its arguments and a frame leaves a processor that has been called. -/
theorem openClosure_called (closure : Closure) (entryPoint : Nat) (returnPoint : ReturnPoint)
    (room : processor.RoomFor arguments) :
    (do
      push (.closure closure)
      pushArguments arguments
      pushFrame closure entryPoint returnPoint) processor =
      (.ok (), processor.called closure entryPoint arguments returnPoint) := by
  rw [Attempt.bind_of_ok (push_stack _ (by have values := room.values; omega))]
  exact openFrame_called closure entryPoint returnPoint room

/-! ### The ways of calling -/

/-- An attempt whose result is put in the place of another one, when it succeeds. -/
theorem answer_of_ok {α β : Type} {attempt : Attempt Processor β} {own : β}
    {before after : Processor} (result : α) (run : attempt before = (.ok own, after)) :
    (attempt >>= fun _ => pure result) before = (.ok result, after) :=
  Attempt.bind_of_ok run

section

variable {chunk : Chunk} {function : FunctionEntry}

/-- A closure of a function that the chunk defines begins where the function does. -/
theorem entryPoint_of_function (known : chunk.function? closure.function = some function) :
    chunk.entryPoint closure = .ok function.entryPoint := by
  rw [Chunk.entryPoint, known]

/-- The host calls a value that it has in hand, for the closure that it stands for. -/
theorem enterFromHost_called {callee : Value} (isClosure : callee.collapse = .closure closure)
    (known : chunk.function? closure.function = some function)
    (room : processor.RoomFor arguments) :
    enterFromHost chunk (some callee) arguments processor =
      (.ok function.entryPoint, processor.called closure function.entryPoint arguments .host) := by
  have looked :
      (fun _ : Processor => chunk.entryPoint closure) processor = .ok function.entryPoint :=
    entryPoint_of_function known
  have entered := answer_of_ok function.entryPoint
    (openClosure_called closure function.entryPoint .host room)
  simp only [Attempt.bind_assoc] at entered
  rw [enterFromHost, Attempt.read_bind]
  simp only [Option.getD_some, isClosure]
  exact Eq.trans (Attempt.check_bind_of_ok looked) entered

/-- The host calls the closure that lies on top. -/
theorem enterFromHost_top {below : List Value}
    (known : chunk.function? closure.function = some function)
    (values : processor.values.toList = below ++ [.closure closure])
    (room : RoomFor arguments (processor.lowered below.length)) :
    enterFromHost chunk none arguments processor = (.ok function.entryPoint,
      called closure function.entryPoint arguments .host (processor.lowered below.length)) := by
  have looked :
      (fun _ : Processor => chunk.entryPoint closure) processor = .ok function.entryPoint :=
    entryPoint_of_function known
  have opened := openFrame_called closure function.entryPoint .host room
  have whole : stack [.closure closure] (processor.lowered below.length) = processor := by
    rw [stack, lowered, BoundedStack.appendAll_truncate values]
  rw [whole] at opened
  have entered := answer_of_ok function.entryPoint opened
  simp only [Attempt.bind_assoc] at entered
  have top : processor.values.top? = some (.closure closure) := by
    rw [BoundedStack.top?_eq, values, List.getLast?_concat]
  rw [enterFromHost, Attempt.read_bind]
  simp only [Option.getD_none, top, Option.getD_some, Value.collapse]
  exact Eq.trans (Attempt.check_bind_of_ok looked) entered

/-- A coroutine is resumed for the first time. -/
theorem enterFromResume_called (known : chunk.function? closure.function = some function)
    (fresh : processor.savedPointer = none) (entry : processor.entry = some closure)
    (room : processor.RoomFor arguments) :
    enterFromResume chunk arguments processor = (.ok function.entryPoint,
      called closure function.entryPoint arguments .host { processor with entry := none }) := by
  rw [enterFromResume_first fresh entry]
  exact enterFromHost_called rfl known ⟨room.values, room.frames⟩

end

/-! ### Taking the operands of a call -/

/-- The operands of an instruction are taken from the window of the frame, in the order in which
they were pushed. -/
theorem popMany_operands {count : Nat} {below operands : List Value}
    (values : processor.values.toList = below ++ operands) (length : operands.length = count)
    (window : processor.base ≤ below.length) :
    popMany count processor = (.ok operands, processor.lowered below.length) := by
  have height := congrArg List.length values
  rw [BoundedStack.length_toList, List.length_append, length] at height
  have enough : ¬ processor.values.height < processor.base + count := by omega
  have left : processor.values.height - count = below.length := by omega
  simp only [popMany, enough, if_false, left, BoundedStack.topItems_eq, values, List.drop_left,
    lowered]

/-- The same for a single one. -/
theorem pop_operand {below : List Value} {value : Value}
    (values : processor.values.toList = below ++ [value]) (window : processor.base ≤ below.length) :
    pop processor = (.ok value, processor.lowered below.length) := by
  have height := congrArg List.length values
  rw [BoundedStack.length_toList, List.length_append, List.length_singleton] at height
  have enough : ¬ processor.values.height ≤ processor.base := by omega
  have left : processor.values.height - 1 = below.length := by omega
  have top : processor.values.top? = some value := by
    rw [BoundedStack.top?_eq, values, List.getLast?_concat]
  simp only [pop, enough, if_false, left, top, lowered]

/-! ### Copying arguments -/

/-- Each parameter is bound to the argument at its place, or to nil where there is none. The
induction is on the number of parameters, over all lists of arguments. -/
theorem pushParameters_stack (given : List Value) (parameters : Nat)
    (room : processor.values.height + parameters ≤ processor.values.capacity) :
    pushParameters given parameters processor = (.ok (), processor.stack
      ((List.range parameters).map fun index => given[index]?.getD .nil)) := by
  induction parameters generalizing given processor with
  | zero => simp [pushParameters, Attempt.succeed, stack]
  | succ parameters inductionHypothesis =>
    have pushed : push (given.head?.getD .nil) processor = _ := push_stack _ (by omega)
    have others : pushParameters given.tail parameters
        (processor.stack [given.head?.getD .nil]) = _ :=
      inductionHypothesis _ (by simp [stack]; omega)
    have first : given.head? = given[0]? := List.head?_eq_getElem?
    rw [pushParameters, Attempt.bind_of_ok pushed, others, stack_stack, List.range_succ_eq_map,
      first]
    simp [List.getElem?_tail, Function.comp_def]

/-- The arguments of a frame lie below its base, so that what is in its window does not matter.
Their number is read from the slot above them, and the block of that length is copied: one value for
each parameter, and what is left as one tuple if the function takes it. -/
theorem copyArguments_bound {chunk : Chunk} {function : FunctionEntry} {frame : Frame}
    {below window : List Value} (known : chunk.function? closure.function = some function)
    (values : processor.values.toList = below ++ slots closure arguments ++ window)
    (top : processor.frames.top? = some frame) (named : frame.function = closure.function)
    (base : frame.base = below.length + (slots closure arguments).length)
    (countable : (Value.spread arguments).length ≤ 2 ^ 53)
    (room : processor.values.height + (function.bound (Value.spread arguments)).length ≤
      processor.values.capacity) :
    copyArguments chunk processor =
      (.ok (), processor.stack (function.bound (Value.spread arguments))) := by
  generalize given : Value.spread arguments = spread at *
  have slot : frame.countSlot = below.length + (spread.length + 1) := by
    rw [Frame.countSlot, base, length_slots, given]
    omega
  have stacked : processor.values.toList = (below ++ [.closure closure]) ++ spread ++
      (countValue spread.length :: window) := by
    rw [values, slots, given]
    simp
  have counted : processor.values.get? frame.countSlot = some (countValue spread.length) := by
    rw [BoundedStack.get?_eq, stacked, slot, List.getElem?_append_right (by simp)]
    simp
  have current : currentFrame processor = (.ok frame, processor) := by
    rw [currentFrame, Attempt.check, top]
  have counts : argumentCount frame processor = (.ok spread.length, processor) := by
    rw [argumentCount, Attempt.check, counted, Option.bind_some,
      countOf?_countValue_of_le countable]
  have enough : ¬ frame.countSlot < spread.length := by omega
  have block : (processor.values.items.extract (frame.countSlot - spread.length)
      frame.countSlot).toList = spread := by
    have first : frame.countSlot - spread.length = (below ++ [Value.closure closure]).length := by
      simp
      omega
    have size : frame.countSlot - (frame.countSlot - spread.length) = spread.length := by omega
    rw [Array.toList_extract, List.extract_eq_take_drop, size, first]
    change List.take spread.length (List.drop _ processor.values.toList) = spread
    rw [stacked, List.append_assoc, List.drop_left, List.take_left]
  simp only [FunctionEntry.bound, List.length_append, List.length_map, List.length_range] at room
  have copied : pushParameters spread function.parameters processor = _ :=
    pushParameters_stack _ _ (by omega)
  rw [copyArguments, Attempt.bind_of_ok current]
  simp only [named, known]
  rw [Attempt.bind_of_ok counts]
  simp only [enough, if_false]
  rw [Attempt.read_bind]
  simp only [block]
  rw [Attempt.bind_of_ok copied, FunctionEntry.bound]
  by_cases variadic : function.variadic = true
  · rw [if_pos variadic] at room ⊢
    rw [if_pos variadic, push_stack _ (by simp [stack] at room ⊢; omega), stack_stack]
  · rw [if_neg variadic, if_neg variadic, List.append_nil]
    rfl

end Processor

/-! ### Machines -/

open Processor

namespace Store

variable {store : Store} {id : CoroutineId} {α : Type}

/-- An attempt on a processor that has just been changed. -/
theorem onProcessor_changed {attempt : Attempt Processor α} {processor after : Processor}
    {result : Except ScriptError α} (known : store.Has id)
    (run : attempt processor = (result, after)) :
    onProcessor id attempt (store.modifyProcessor id fun _ => processor) =
      (result, store.modifyProcessor id fun _ => after) := by
  rw [onProcessor_eq, processor_modifyProcessor known, run]
  simp only [modifyProcessor, modifyCoroutine_twice]

/-- What has been computed of a processor is what happens to it in a store. -/
theorem onProcessor_run {attempt : Attempt Processor α} {after : Processor}
    {result : Except ScriptError α} (run : attempt (store.processor id) = (result, after)) :
    onProcessor id attempt store = (result, store.modifyProcessor id fun _ => after) := by
  rw [onProcessor_eq, run]

end Store

/-- The machine is about to carry out the instruction at this place, on a processor that is as
stated. -/
def Machine.At {W : Type} (machine : Machine W) (id : CoroutineId) (pointer : Nat)
    (processor : Processor) : Prop :=
  machine.focus = .code id pointer ∧ machine.store.processor id = processor

/-- The operands of an instruction are taken from the window, and then what lies below them. -/
theorem Store.take_operands {α : Type} {store : Store} {id : CoroutineId}
    {below operands : List Value} {value : Value} {count : Nat} (there : store.Has id)
    (values : (store.processor id).values.toList = below ++ value :: operands)
    (length : operands.length = count) (window : (store.processor id).base ≤ below.length)
    (rest : List Value → Value → Attempt Store α) :
    (do
      let taken ← onProcessor id (popMany count)
      let under ← onProcessor id pop
      rest taken under : Attempt Store α) store =
      rest operands value (store.modifyProcessor id fun _ =>
        (store.processor id).lowered below.length) := by
  have split : (store.processor id).values.toList = (below ++ [value]) ++ operands := by
    simp [values]
  have taken := popMany_operands split length (by simp; omega)
  have popped : pop ((store.processor id).lowered (below ++ [value]).length) = (.ok value, _) :=
    pop_operand (by rw [lowered, BoundedStack.toList_truncate, split, List.take_left]) window
  rw [lowered_lowered (by simp)] at popped
  rw [Attempt.bind_of_ok (onProcessor_run taken),
    Attempt.bind_of_ok (onProcessor_changed there popped)]

/-- A call instruction takes its operands and calls the closure that the callee stands for. It
spreads them when it takes them, and they are spread again when they are pushed. -/
theorem Store.execute_call {store : Store} {id : CoroutineId} {closure : Closure}
    {function : FunctionEntry} {below operands : List Value} {callee : Value} {count : Nat}
    (next : Nat) (there : store.Has id)
    (known : store.chunk.function? closure.function = some function)
    (isClosure : callee.collapse = .closure closure)
    (values : (store.processor id).values.toList = below ++ callee :: operands)
    (length : operands.length = count) (window : (store.processor id).base ≤ below.length)
    (room : RoomFor operands ((store.processor id).lowered below.length)) :
    execute id (.call count) next store = (.ok (.goto function.entryPoint),
      store.modifyProcessor id fun _ =>
        called closure function.entryPoint operands (.instruction next)
        ((store.processor id).lowered below.length)) := by
  -- The operands are spread before they are pushed, and the push spreads them again.
  have roomAgain : RoomFor (Value.spread operands) ((store.processor id).lowered below.length) :=
    ⟨by rw [Value.spread_spread]; exact room.values, room.frames⟩
  have opened := openClosure_called closure function.entryPoint (.instruction next) roomAgain
  refine Eq.trans (take_operands there values length window _) ?_
  rw [isClosure]
  dsimp only
  refine Eq.trans (Attempt.check_bind_of_ok (entryPoint_of_function known)) ?_
  rw [Attempt.bind_of_ok (onProcessor_changed there opened)]
  simp only [called, slots, Value.spread_spread]
  rfl

/-- What a function makes of its arguments goes on top of its window, be there too few of them, too
many, or as many as it has parameters. -/
theorem Store.execute_arguments {store : Store} {id : CoroutineId} {closure : Closure}
    {function : FunctionEntry} {frame : Frame} {arguments below window : List Value} (next : Nat)
    (known : store.chunk.function? closure.function = some function)
    (values : (store.processor id).values.toList = below ++ slots closure arguments ++ window)
    (top : (store.processor id).frames.top? = some frame)
    (named : frame.function = closure.function)
    (base : frame.base = below.length + (slots closure arguments).length)
    (countable : (Value.spread arguments).length ≤ 2 ^ 53)
    (room : (store.processor id).values.height + (function.bound (Value.spread arguments)).length ≤
      (store.processor id).values.capacity) :
    execute id .arguments next store = (.ok (.goto next),
      store.modifyProcessor id fun _ =>
        (store.processor id).stack (function.bound (Value.spread arguments))) := by
  have copied := copyArguments_bound known values top named base countable room
  rw [execute, Attempt.read_bind, Attempt.bind_of_ok (onProcessor_run copied)]
  rfl

/-- A machine that goes on after a change of the processor is at that place with that processor. -/
theorem Machine.at_changed {W : Type} {store : Store} {id : CoroutineId} (there : store.Has id)
    (processor : Processor) {world : W} {pointer : Nat} {pending : List Pending} :
    Machine.At ⟨store.modifyProcessor id fun _ => processor, world, .code id pointer, pending⟩ id
      pointer processor :=
  ⟨rfl, Store.processor_modifyProcessor there _⟩

/-- An instruction that goes on in the code takes a machine there, with nobody else concerned. -/
theorem Machine.step_goto {W : Type} {store after : Store} {id : CoroutineId} {pointer next : Nat}
    {instruction : Instruction} (host : Host W) (world : W) (pending : List Pending)
    (found : store.chunk.instruction? pointer = some instruction)
    (run : store.execute id instruction (pointer + 1) = (.ok (.goto next), after)) :
    Machine.step host ⟨store, world, .code id pointer, pending⟩ =
      ⟨after, world, .code id next, pending⟩ := by
  simp only [Machine.step, Machine.stepCode, found, run]

/-! ### The convention -/

/-- How a closure of a function is called with arguments, whoever calls it, and what the function
makes of them. The call of the host is prepared on a processor whose guard it has passed and which
may not yield any more, and a coroutine forgets what it is to begin with. -/
structure Convention (chunk : Chunk) (closure : Closure) (function : FunctionEntry)
    (arguments : List Value) : Prop where
  /-- The slots of a call lie on top of what was there, and the base of its frame right above
  them. -/
  layout : ∀ (returnPoint : ReturnPoint) (processor : Processor),
    let spread := Value.spread arguments
    let after := processor.called closure function.entryPoint arguments returnPoint
    after.values.toList = processor.values.toList ++
      [.closure closure] ++ spread ++ [countValue spread.length] ∧
    after.frames.toList = processor.frames.toList ++
      [⟨after.values.height, returnPoint, closure.scope, function.entryPoint, closure.function⟩]
  /-- The host calls a value that stands for the closure. -/
  fromHost : ∀ {W : Type} {store : Store} {id : CoroutineId} {guard : ThreadGuard} {callee : Value}
    (world : W) (outer : List Pending), store.chunk = chunk → store.Has id →
    store.passGuard id = .ok guard → callee.collapse = .closure closure →
    RoomFor arguments (store.processor id) →
    (Machine.enter (store.beginCall id (some callee) arguments) world outer).At id
      function.entryPoint
      (called closure function.entryPoint arguments .host
        { store.processor id with guard := guard, mayYield := false })
  /-- The host calls the closure that lies on top. -/
  fromTop : ∀ {W : Type} {store : Store} {id : CoroutineId} {guard : ThreadGuard}
    {below : List Value} (world : W) (outer : List Pending),
    store.chunk = chunk → store.Has id →
    store.passGuard id = .ok guard →
    (store.processor id).values.toList = below ++ [.closure closure] →
    RoomFor arguments ((store.processor id).lowered below.length) →
    (Machine.enter (store.beginCall id none arguments) world outer).At id function.entryPoint
      (called closure function.entryPoint arguments .host
        { (store.processor id).lowered below.length with guard := guard, mayYield := false })
  /-- An instruction calls a value of its window that stands for the closure, and takes it away with
  its operands. -/
  fromCode : ∀ {W : Type} {store : Store} {id : CoroutineId} {pointer : Nat} {callee : Value}
    {below : List Value} (host : Host W) (world : W) (pending : List Pending), store.chunk = chunk →
    store.Has id → chunk.instruction? pointer = some (.call arguments.length) →
    callee.collapse = .closure closure →
    (store.processor id).values.toList = below ++ callee :: arguments →
    (store.processor id).base ≤ below.length →
    RoomFor arguments ((store.processor id).lowered below.length) →
    (Machine.step host ⟨store, world, .code id pointer, pending⟩).At id function.entryPoint
      (called closure function.entryPoint arguments (.instruction (pointer + 1))
        ((store.processor id).lowered below.length))
  /-- A coroutine that is to begin with the closure is resumed for the first time. -/
  fromResume : ∀ {W : Type} {store : Store} {target : CoroutineId} {guard : ThreadGuard} (world : W)
    (outer : List Pending), store.chunk = chunk → store.Admits target guard →
    (store.processor target).savedPointer = none → (store.processor target).entry = some closure →
    RoomFor arguments (store.processor target) →
    (Machine.enter (store.beginResume target arguments) world outer).At target function.entryPoint
      (called closure function.entryPoint arguments .host
        { store.processor target with guard := guard, entry := none })
  /-- In a frame of the call, whatever lies in its window, its parameters go on top. -/
  binds : ∀ {W : Type} {store : Store} {id : CoroutineId} {pointer : Nat}
    {below window : List Value} {returnPoint : ReturnPoint} (host : Host W) (world : W)
    (pending : List Pending),
    store.chunk = chunk → store.Has id → chunk.instruction? pointer = some .arguments →
    (store.processor id).values.toList = below ++ slots closure arguments ++ window →
    (store.processor id).frames.top? =
      some ⟨below.length + (slots closure arguments).length, returnPoint, closure.scope,
        function.entryPoint, closure.function⟩ →
    (Value.spread arguments).length ≤ 2 ^ 53 →
    (store.processor id).values.height + (function.bound (Value.spread arguments)).length ≤
      (store.processor id).values.capacity →
    (Machine.step host ⟨store, world, .code id pointer, pending⟩).At id (pointer + 1)
      ((store.processor id).stack (function.bound (Value.spread arguments)))

/-- The host, an instruction and the first resume of a coroutine call a closure in the same way:
each leaves `Processor.called` of the stacks that it has started from. What the called code then
copies into its window is told by the list of arguments alone, too few or too many of them
included. -/
theorem calling_convention {chunk : Chunk} {closure : Closure} {function : FunctionEntry}
    (known : chunk.function? closure.function = some function) (arguments : List Value) :
    Convention chunk closure function arguments where
  layout returnPoint processor := by
    simp [called, stack, slots]
  fromHost {W store id guard callee} world outer sameChunk there admitted isClosure room := by
    subst sameChunk
    have prepared : enterFromHost store.chunk (some callee) arguments
        { store.processor id with guard := guard, mayYield := false } = _ :=
      enterFromHost_called isClosure known ⟨room.values, room.frames⟩
    have enters := enter_beginCall there admitted prepared world outer
    rw [enters]
    exact Machine.at_changed there _
  fromTop {W store id guard below} world outer sameChunk there admitted values room := by
    subst sameChunk
    have prepared : enterFromHost store.chunk none arguments
        { store.processor id with guard := guard, mayYield := false } = _ :=
      enterFromHost_top known values ⟨room.values, room.frames⟩
    have enters := enter_beginCall there admitted prepared world outer
    rw [enters]
    exact Machine.at_changed there _
  fromCode {W store id pointer callee below} host world pending sameChunk there found isClosure
      values window room := by
    subst sameChunk
    have run := Store.execute_call (pointer + 1) there known isClosure values rfl window room
    rw [Machine.step_goto host world pending found run]
    exact Machine.at_changed there _
  fromResume {W store target guard} world outer sameChunk admits fresh entry room := by
    subst sameChunk
    have prepared : enterFromResume store.chunk arguments
        { store.processor target with guard := guard } = _ :=
      enterFromResume_called known fresh entry ⟨room.values, room.frames⟩
    have enters := enter_beginResume admits prepared world outer
    rw [enters]
    refine ⟨rfl, ?_⟩
    rw [Store.processor, Store.coroutine_modifyCoroutine (has_of_resumable admits.resumable)]
  binds {W store id pointer below window returnPoint} host world pending sameChunk there found
      values top countable room := by
    subst sameChunk
    have run := Store.execute_arguments (pointer + 1) known values top rfl rfl countable room
    rw [Machine.step_goto host world pending found run]
    exact Machine.at_changed there _

/-! ### A call with tuples in tuples -/

/-- A main body of one parameter, which takes what else there is as a tuple. -/
def gatheringChunk : Chunk := ⟨#[⟨"main", 0, 1, true⟩], #[.arguments, .ret 1]⟩

/-- Its main body is called with a tuple in a tuple. The call spreads both, and the instruction
gathers what the parameter has left. -/
theorem main_gathers_arguments :
    let arguments : List Value := [.tuple [.tuple [.boolean true], .nil]]
    let store := Store.sample gatheringChunk
    let entered := Machine.enter (store.beginCall Store.main (some .mainBody) arguments) () []
    let bound := (entered.step Host.silent).store.processor Store.main
    gatheringChunk.function? 0 = some ⟨"main", 0, 1, true⟩ ∧ entered.focus = .code Store.main 0 ∧
      bound.values.toList =
        [.mainBody, .boolean true, .nil, countValue 2, .boolean true, .tuple [.nil]] := by
  intro arguments store entered bound
  have convention : Convention gatheringChunk ⟨0, ⟨0, []⟩⟩ ⟨"main", 0, 1, true⟩ arguments :=
    calling_convention rfl arguments
  have there : store.Has Store.main := Nat.zero_lt_one
  have admitted : store.passGuard Store.main = .ok ⟨some 0, 1⟩ := rfl
  have isClosure : Value.mainBody.collapse = .closure ⟨0, ⟨0, []⟩⟩ := rfl
  have room : RoomFor arguments (store.processor Store.main) := ⟨by decide, by decide⟩
  obtain ⟨focus, begun⟩ := convention.fromHost () [] rfl there admitted isClosure room
  have values : (entered.store.processor Store.main).values.toList =
      [] ++ slots ⟨0, ⟨0, []⟩⟩ arguments ++ [] := congrArg (fun after => after.values.toList) begun
  have top : (entered.store.processor Store.main).frames.top? =
      some ⟨0 + (slots ⟨0, ⟨0, []⟩⟩ arguments).length, .host, ⟨0, []⟩, 0, 0⟩ :=
    congrArg (fun after => after.frames.top?) begun
  have there : entered.store.Has Store.main := Nat.zero_lt_one
  have found : gatheringChunk.instruction? 0 = some .arguments := rfl
  obtain ⟨_, after⟩ := convention.binds Host.silent () entered.pending rfl there found values top
    (by decide) (by decide)
  exact ⟨rfl, focus, congrArg (fun after => after.values.toList) after⟩

end CoroutineVM
