import CoroutineVM.Proofs.Contents.Arguments
import CoroutineVM.Proofs.Machine.Reports
import CoroutineVM.Proofs.Machine.Suspension

/-!
# Several values on their way

A return, a yield and a resume hand over one value each, which stands for as many as there are: nil
for none, a single one as itself, and several as a tuple. Whoever receives it takes it apart again,
as the values of a report or as the last of a list of arguments.

The two ways of taking apart differ from each other, and a single value is packed otherwise than
several are. What comes out is the same in every case, the values as a list of arguments stands for
them: nothing is lost, doubled or moved.
-/

namespace CoroutineVM

open Processor

variable {W : Type} {host : Host W} {store : Store} {machine : Machine W} {id target : CoroutineId}
  {values : List Value}

/-! ### Packing and taking apart -/

namespace Value

/-- The one value that a return or a yield of these values hands over. A single one is handed over
as it is. -/
def result : List Value → Value
  | [value] => value
  | values => pack (spread values)

/-- Values that are no tuples are what the packed value stands for. -/
theorem expand_pack (given : values ≠ []) (single : ∀ value ∈ values, value.isTuple = false) :
    (pack values).expand = values := by
  match values with
  | [] => exact absurd rfl given
  | [value] =>
    have alone := single value List.mem_cons_self
    cases value with
    | tuple items => cases alone
    | _ => rfl
  | _ :: _ :: _ => rfl

/-- Collapsing does nothing to values none of which is a tuple. -/
theorem map_collapse_of_single (single : ∀ value ∈ values, value.isTuple = false) :
    values.map collapse = values := by
  refine Eq.trans (List.map_congr_left ?_) (List.map_id values)
  intro value member
  exact collapse_of_single (single value member)

/-- The values in a flat one are no tuples, so that each of them stands for itself. -/
theorem Flat.collapse_expand {value : Value} (flat : value.Flat) :
    value.expand.map collapse = value.expand := by
  apply map_collapse_of_single
  intro item member
  cases value with
  | tuple items => exact flat item member
  | _ =>
    obtain rfl := List.mem_singleton.mp member
    rfl

/-- Two values or more do not stand for nothing, since the first of them gives one. -/
theorem spread_ne_nil (first next : Value) (rest : List Value) :
    spread (first :: next :: rest) ≠ [] := by
  simp [spread]

/-- However many values are handed over, and wherever there are tuples among them, they are taken
apart as a list of arguments is. -/
theorem expand_result (given : values ≠ []) (flat : ∀ value ∈ values, value.Flat) :
    (result values).expand = spread values := by
  match values with
  | [] => exact absurd rfl given
  | [value] =>
    have alone := flat value List.mem_cons_self
    rw [result, spread_singleton, alone.collapse_expand]
  | first :: next :: rest =>
    exact expand_pack (spread_ne_nil first next rest) fun _ => isTuple_of_mem_spread

/-- As the last argument, too, they give what a list of arguments does. -/
theorem spread_concat_result (before : List Value) (given : values ≠ [])
    (flat : ∀ value ∈ values, value.Flat) :
    spread (before ++ [result values]) = before.map collapse ++ spread values := by
  rw [spread_concat, spread_singleton, expand_result given flat,
    map_collapse_of_single fun _ => isTuple_of_mem_spread]

/-- The one value for the arguments of a resume stands for them, or it is nil if they stand for
nothing. -/
theorem pack_spread_cases (arguments : List Value) :
    (spread arguments ≠ [] → (pack (spread arguments)).expand = spread arguments) ∧
      (spread arguments = [] → pack (spread arguments) = .nil) := by
  constructor
  · intro given
    exact expand_pack given fun _ => isTuple_of_mem_spread
  · intro none
    rw [none]
    rfl

end Value

/-- What is handed over is made of the values on top of the window, and it takes them away. For one
value nothing is packed, and for several they are spread before. -/
theorem Processor.popResult_operands {processor : Processor} {below : List Value}
    (split : processor.values.toList = below ++ values) (window : processor.base ≤ below.length) :
    popResult values.length processor =
      (.ok (Value.result values), processor.lowered below.length) := by
  match values with
  | [] =>
    have whole : processor.values.height ≤ below.length := by
      rw [← BoundedStack.length_toList, split, List.append_nil]
    have same : processor.values.truncate below.length = processor.values := by
      refine BoundedStack.ext_toList ?_ rfl
      rw [BoundedStack.toList_truncate, List.take_of_length_le (by simpa using whole)]
    rw [lowered, same]
    rfl
  | [value] => exact pop_operand split window
  | first :: next :: rest =>
    have taken := popMany_operands split rfl window
    exact Attempt.bind_of_ok taken

/-! ### What is handed over -/

/-- Somewhere in a run code is about to carry out an instruction, with these operands on top of its
window. -/
structure Machine.Faces (host : Host W) (machine : Machine W) (id : CoroutineId) (pointer : Nat)
    (instruction : Instruction) (below operands : List Value) : Prop where
  reached : ∃ chunk settings thread operations,
    Machine.Reachable host (.initial chunk settings thread) operations machine
  coding : machine.focus = .code id pointer
  found : machine.store.chunk.instruction? pointer = some instruction
  values : (machine.store.processor id).values.toList = below ++ operands
  window : (machine.store.processor id).base ≤ below.length

/-- A frame has been left with a value: the host has it, or the code below, on top of its window. -/
inductive Machine.Gives (machine : Machine W) (id : CoroutineId) (value : Value) : Prop where
  | toHost (focus : machine.focus = .settled (.ok (.returned value)))
  | toCode {pointer : Nat} {kept : List Value} (focus : machine.focus = .code id pointer)
      (values : (machine.store.processor id).values.toList = kept ++ [value])

/-- What a value conveys to those that receive it. -/
structure Conveys (host : Host W) (value : Value) (items : List Value) : Prop where
  /-- It is taken apart into these. -/
  expands : value.expand = items
  /-- They stand in its place at the end of a list of arguments, whoever calls. -/
  arguments : ∀ before, Value.spread (before ++ [value]) = before.map Value.collapse ++ items
  /-- Code that has resumed a coroutine finds them in one tuple behind true, in the place of its
  operands. -/
  reported : ∀ {machine : Machine W} {id target : CoroutineId} {pointer : Nat}
    {below operands : List Value} {callee : Value},
    machine.Faces host id pointer (.resumeCoroutine operands.length) below (callee :: operands) →
    callee.collapse = .coroutine target → ∀ {after : Store} {later : W} {exit : Exit},
    let waiting := .resumeInstruction id (pointer + 1) :: machine.pending
    Machine.Returns host waiting (machine.step host) after later (.ok exit) → exit.value = value →
    let next := Machine.step host ⟨after, later, .settled (.ok exit), waiting⟩
    next.focus = .code id (pointer + 1) ∧ (next.store.processor id).values.toList =
      below ++ [.tuple (.boolean true :: items)]
  /-- A closure that code calls with the value as its last argument gets them as its last
  arguments. -/
  called : ∀ {machine : Machine W} {id : CoroutineId} {pointer : Nat} {below before : List Value}
    {callee : Value} {closure : Closure} {function : FunctionEntry},
    machine.Faces host id pointer (.call (before ++ [value]).length) below
      (callee :: (before ++ [value])) →
    callee.collapse = .closure closure →
    machine.store.chunk.function? closure.function = some function →
    RoomFor (before ++ [value]) ((machine.store.processor id).lowered below.length) →
    let next := machine.step host
    let given := before.map Value.collapse ++ items
    next.focus = .code id function.entryPoint ∧ (next.store.processor id).values.toList =
      below ++ .closure closure :: (given ++ [countValue given.length])
  /-- So does a function of the host. -/
  invoked : ∀ {machine : Machine W} {id : CoroutineId} {pointer : Nat} {below before : List Value}
    {callee : Value} {function : HostFunction},
    machine.Faces host id pointer (.call (before ++ [value]).length) below
      (callee :: (before ++ [value])) →
    callee.collapse = .host function →
    (machine.step host).focus = .host id (.invoked function (before.map Value.collapse ++ items))

/-- The code behind a yield goes on with one value more, which stands for the arguments of the
resume. There has to be room for it. -/
structure Machine.Receives (machine : Machine W) (id : CoroutineId) (resumeAt : Nat)
    (stopped : Processor) (arguments : List Value) : Prop where
  received : stopped.values.height < stopped.values.capacity →
    machine.focus = .code id resumeAt ∧ ∃ value,
      (machine.store.processor id).values.toList = stopped.values.toList ++ [value] ∧
      (Value.spread arguments ≠ [] → value.expand = Value.spread arguments) ∧
      (Value.spread arguments = [] → value = .nil)
  full : ¬ stopped.values.height < stopped.values.capacity →
    machine.focus = .settled (.error (.stackOverflow stopped.values.capacity))

/-- How values travel. They are handed over by a return or a yield, and taken apart by those who
receive the result; and as arguments of a resume they become the value of the yield that it goes on
behind. -/
structure Transport (host : Host W) (values : List Value) : Prop where
  /-- A return hands its result over. It can fail to do so only where there may be more arguments
  than their number can tell. -/
  returned : ∀ {machine : Machine W} {id : CoroutineId} {pointer : Nat} {below : List Value},
    machine.Faces host id pointer (.ret values.length) below values →
    (machine.step host).Gives id (.result values) ∨
      2 ^ 53 < machine.store.settings.valueCapacity ∧
        ∃ error, (machine.step host).focus = .settled (.error error)
  /-- A yield hands over the same, where it is permitted. -/
  yielded : ∀ {machine : Machine W} {id : CoroutineId} {pointer : Nat} {below : List Value},
    machine.Faces host id pointer (.yield values.length) below values →
    (machine.step host).focus = .settled
      (if (machine.store.processor id).mayYield then .ok (.yielded (.result values) (pointer + 1))
        else .error .yieldAcrossHostCall)
  /-- No values come to nil. -/
  empty : values = [] → Value.result values = .nil
  /-- Whoever receives a result gets all the values, in their order. -/
  conveyed : values ≠ [] → (∀ value ∈ values, value.Flat) →
    Conveys host (.result values) (Value.spread values)
  /-- Whoever resumes a coroutine that has yielded hands over the values to it, if there is room for
  one. -/
  resumed : ∀ {store : Store} {target : CoroutineId} {guard : ThreadGuard} {resumeAt : Nat},
    Suspended (store.processor target) resumeAt (store.coroutine target) →
      store.Admits target guard →
    ∀ (world : W) (outer : List Pending), (Machine.enter (store.beginResume target values) world
      outer).Receives target resumeAt (store.processor target) values
  /-- So does code, which spreads them before. -/
  resumedByCode : ∀ {machine : Machine W} {id target : CoroutineId} {guard : ThreadGuard}
    {pointer resumeAt : Nat} {below : List Value} {callee : Value},
    machine.Faces host id pointer (.resumeCoroutine values.length) below (callee :: values) →
    callee.collapse = .coroutine target →
    Suspended (machine.store.processor target) resumeAt (machine.store.coroutine target) →
    machine.store.Admits target guard →
    (machine.step host).Receives target resumeAt (machine.store.processor target) values

section

variable {pointer : Nat} {below operands : List Value}

/-- A machine that faces an instruction has been reached by a run, so that it is sound. -/
theorem Machine.Faces.sound {instruction : Instruction}
    (faces : machine.Faces host id pointer instruction below operands) :
    ∃ allowances, machine.Sound allowances := by
  obtain ⟨chunk, settings, thread, operations, reached⟩ := faces.reached
  exact ⟨_, (reachable_sound (guardsAllowed host operations) reached).1⟩

/-- The coroutine whose code faces an instruction is executing. -/
theorem Machine.Faces.executing {instruction : Instruction}
    (faces : machine.Faces host id pointer instruction below operands) :
    machine.store.access id = .executing := by
  obtain ⟨allowances, sound⟩ := faces.sound
  exact sound.executing faces.coding

/-- So it is a coroutine of the store. -/
theorem Machine.Faces.has {instruction : Instruction}
    (faces : machine.Faces host id pointer instruction below operands) : machine.store.Has id :=
  Store.has_of_executing faces.executing

/-- The next step of the machine is that of the code. -/
theorem Machine.Faces.step {instruction : Instruction}
    (faces : machine.Faces host id pointer instruction below operands) :
    machine.step host = Machine.stepCode id pointer machine.store machine.world
      machine.pending := by
  obtain ⟨store, world, focus, pending⟩ := machine
  obtain rfl : focus = .code id pointer := faces.coding
  rfl

/-- Where the slots of arguments can be counted, the frame of code that goes on finds its
arguments. -/
theorem Machine.Faces.framed {instruction : Instruction}
    (faces : machine.Faces host id pointer instruction below operands)
    (small : machine.store.settings.valueCapacity ≤ 2 ^ 53) :
    (machine.store.processor id).values.height ≤ (machine.store.processor id).values.capacity ∧
      ∃ frame count, Framed (machine.store.processor id) frame count := by
  obtain ⟨allowances, sound⟩ := faces.sound
  have room := (sound.coroutines id).supplied.roomy.room
  obtain ⟨store, world, focus, pending⟩ := machine
  obtain rfl : focus = .code id pointer := faces.coding
  obtain ⟨driven, intact⟩ := sound.coding small
  exact ⟨room, intact.exists_framed driven⟩

/-- What is known of a resume instruction in a sound machine holds of one that a machine faces. -/
theorem Machine.Faces.reports {callee : Value}
    (faces : machine.Faces host id pointer (.resumeCoroutine operands.length) below
      (callee :: operands))
    (isCoroutine : callee.collapse = .coroutine target) :
    machine.ResumeReports host id pointer target below operands := by
  obtain ⟨allowances, sound⟩ := faces.sound
  exact sound.resume_reports faces.coding faces.found isCoroutine faces.values faces.window

/-- A return hands over the result of the values on top, unless the frame does not find its
arguments. -/
theorem Store.leaveFrame_gives (known : store.Has id)
    (split : (store.processor id).values.toList = below ++ values)
    (window : (store.processor id).base ≤ below.length) :
    (leaveFrame id values.length).Ends store
      (fun flow after => flow = .returned (.result values) ∨
        ∃ pointer kept, flow = .goto pointer ∧
          (after.processor id).values.toList = kept ++ [.result values])
      (fun _ _ => (store.processor id).values.height ≤ (store.processor id).values.capacity →
        ∀ frame count, ¬ Framed (store.processor id) frame count) := by
  have taken := popResult_operands split window
  refine (leaveFrame_returns values.length known).mono ?_ ?_
  · intro flow after touches
    cases touches.processor with
    | host popped framed dropped returns =>
      cases taken.symm.trans popped
      exact .inl rfl
    | code popped framed dropped returns =>
      cases taken.symm.trans popped
      exact .inr ⟨_, _, rfl, dropped.values⟩
  · intro error after touches fits frame count framed
    cases touches.processor with
    | short popped => cases taken.symm.trans popped
    | strays popped lost own =>
      have keeps := (inWindow_popResult values.length _).of_ok popped
      exact lost.astray (keeps.toAligned.room fits) frame count (framed.keeps keeps)

/-- A yield hands over the result of the values on top where it is permitted. -/
theorem Store.execute_yield (next : Nat)
    (split : (store.processor id).values.toList = below ++ values)
    (window : (store.processor id).base ≤ below.length) :
    execute id (.yield values.length) next store = if (store.processor id).mayYield then
      (.ok (.yielded (.result values) next),
        store.modifyProcessor id fun _ => (store.processor id).lowered below.length)
      else (.error .yieldAcrossHostCall, store) := by
  rw [execute, Attempt.read_bind]
  split
  next permitted =>
    rw [Attempt.bind_of_ok (onProcessor_run (popResult_operands split window))]
    rfl
  next refused => rfl

/-- A function of the host that code calls gets what the operands stand for. -/
theorem Store.execute_call_host {function : HostFunction} {callee : Value} (next : Nat)
    (there : store.Has id) (isHost : callee.collapse = .host function)
    (split : (store.processor id).values.toList = below ++ callee :: values)
    (window : (store.processor id).base ≤ below.length) :
    execute id (.call values.length) next store =
      (.ok (.callHost function (Value.spread values) next),
      store.modifyProcessor id fun _ => (store.processor id).lowered below.length) := by
  refine Eq.trans (take_operands there split rfl window _) ?_
  rw [isHost]
  rfl

/-- A return gives its values to whoever gets the result, packed into one. It can fail in one way
only, on a stack that may hold more values than a number can count. -/
theorem Machine.Faces.gives
    (faces : machine.Faces host id pointer (.ret values.length) below values) :
    (machine.step host).Gives id (.result values) ∨
      2 ^ 53 < machine.store.settings.valueCapacity ∧
        ∃ error, (machine.step host).focus = .settled (.error error) := by
  have gives := Store.leaveFrame_gives faces.has faces.values faces.window
  rw [Attempt.Ends] at gives
  simp only [faces.step, Machine.stepCode, faces.found, Store.execute]
  split at gives
  next flow after reached =>
    rw [reached]
    obtain rfl | ⟨resumeAt, kept, rfl, stacked⟩ := gives
    · exact .inl (.toHost rfl)
    · exact .inl (.toCode rfl stacked)
  next error after reached =>
    rw [reached]
    refine .inr ⟨?_, error, rfl⟩
    apply Classical.byContradiction
    intro small
    obtain ⟨fits, frame, count, framed⟩ := faces.framed (Nat.not_lt.mp small)
    exact gives fits frame count framed

/-- A yield is settled with its values packed into one if it is permitted, and with the error if it
is not. -/
theorem Machine.Faces.yields
    (faces : machine.Faces host id pointer (.yield values.length) below values) :
    (machine.step host).focus = .settled
      (if (machine.store.processor id).mayYield then .ok (.yielded (.result values) (pointer + 1))
        else .error .yieldAcrossHostCall) := by
  have run := Store.execute_yield (pointer + 1) faces.values faces.window
  simp only [faces.step, Machine.stepCode, faces.found, run]
  by_cases allowed : (machine.store.processor id).mayYield = true
  · simp only [allowed, if_true]
  · simp only [allowed, if_false, Bool.false_eq_true]

end

/-- A resume of a coroutine without room for the value of its yield fails as it begins. -/
theorem Processor.enterFromResume_full (processor : Processor) {resumeAt : Nat}
    (saved : processor.savedPointer = some resumeAt)
    (full : ¬ processor.values.height < processor.values.capacity) (chunk : Chunk)
    (arguments : List Value) :
    enterFromResume chunk arguments processor =
      (.error (.stackOverflow processor.values.capacity),
        { processor with savedPointer := none }) := by
  have filled : processor.values.isFull = true := by
    rw [BoundedStack.isFull_iff]
    omega
  simp only [enterFromResume, saved, push, filled, bind, Attempt.andThen, if_true]

/-- The code of a coroutine that has yielded goes on with what the arguments stand for, packed into
one value on top of its stack. -/
theorem Suspended.receives {guard : ThreadGuard} {resumeAt : Nat}
    (suspended : Suspended (store.processor target) resumeAt (store.coroutine target))
    (admits : store.Admits target guard) (arguments : List Value) (world : W)
    (outer : List Pending) :
    (Machine.enter (store.beginResume target arguments) world outer).Receives target resumeAt
      (store.processor target) arguments := by
  constructor
  · intro room
    obtain ⟨focus, stacked, _⟩ := suspended.continues admits room arguments world outer
    exact ⟨focus, _, stacked, Value.pack_spread_cases arguments⟩
  · intro full
    have prepared := enterFromResume_full { store.processor target with guard := guard }
      suspended.savedPointer full store.chunk arguments
    rw [enter_beginResume admits prepared world outer]
    rfl

/-- Arguments that have been spread before come to the same. -/
theorem Machine.Receives.of_spread {resumeAt : Nat} {stopped : Processor} {arguments : List Value}
    (receives : machine.Receives id resumeAt stopped (Value.spread arguments)) :
    machine.Receives id resumeAt stopped arguments := by
  obtain ⟨received, full⟩ := receives
  rw [Value.spread_spread] at received
  exact ⟨received, full⟩

/-- Whether a resume is let in is told by its coroutine alone. -/
theorem Store.Admits.congr {after : Store} {guard : ThreadGuard}
    (same : after.coroutine target = store.coroutine target) (thread : after.thread = store.thread)
    (admits : store.Admits target guard) : after.Admits target guard := by
  obtain ⟨resumable, free, admitted⟩ := admits
  constructor
  · rw [status, same]
    exact resumable
  · rw [access, same]
    exact free
  · rw [passGuard, processor, same, thread]
    exact admitted

/-- A value is taken apart in the same way by whoever receives it, since a list of arguments and a
report agree on what it stands for. -/
theorem conveys_of_expand {value : Value} {items : List Value} (expands : value.expand = items)
    (arguments : ∀ before, Value.spread (before ++ [value]) = before.map Value.collapse ++ items) :
    Conveys host value items where
  expands := expands
  arguments := arguments
  reported {machine id target pointer below operands callee}
      faces isCoroutine after later exit := by
    intro waiting returns same next
    obtain ⟨pushed, settlement, stacked⟩ :=
      ((faces.reports isCoroutine).settles after later (.ok exit) returns).settled
    rw [← expands, ← same]
    generalize next.focus = focus at settlement
    cases settlement with
    | succeeded => exact ⟨rfl, stacked⟩
  called {machine id pointer below before callee closure function} faces isClosure known room := by
    intro next given
    have run :=
      Store.execute_call (pointer + 1) faces.has known isClosure faces.values rfl faces.window room
    have lies : slots closure (before ++ [value]) =
        .closure closure :: (given ++ [countValue given.length]) := by
      rw [slots, arguments]
    simp only [next, faces.step, Machine.stepCode, faces.found, run,
      Store.processor_modifyProcessor faces.has, true_and]
    simp [Processor.called, stack, lies, Processor.lowered, faces.values]
  invoked {machine id pointer below before callee function} faces isHost := by
    have run := Store.execute_call_host (pointer + 1) faces.has isHost faces.values faces.window
    simp only [faces.step, Machine.stepCode, faces.found, run, arguments]

/-- Values are neither lost nor doubled nor moved when they are returned, yielded or handed over to
a coroutine, however many there are. Whoever packs them does so in one way, and whoever takes them
apart gets what they stand for as a list of arguments. -/
theorem values_transported (host : Host W) (values : List Value) : Transport host values where
  returned faces := faces.gives
  yielded faces := faces.yields
  empty none := none ▸ rfl
  conveyed given flat := conveys_of_expand (Value.expand_result given flat) fun before =>
    Value.spread_concat_result before given flat
  resumed suspended admits world outer := suspended.receives admits values world outer
  resumedByCode {machine id target guard pointer resumeAt below callee} faces isCoroutine suspended
      admits := by
    have apart : target ≠ id := by
      rintro rfl
      cases admits.free.symm.trans faces.executing
    obtain ⟨handed, waiting, hands⟩ := (machine.store.lowered id below.length).hands id target
    obtain ⟨kept, thread⟩ := hands.other apart
    have same : handed.coroutine target = machine.store.coroutine target :=
      kept.trans (Store.coroutine_modifyCoroutine_other apart _)
    have processor : handed.processor target = machine.store.processor target :=
      congrArg Coroutine.processor same
    have receives := Suspended.receives (same ▸ processor ▸ suspended) (admits.congr same thread)
      (Value.spread values) machine.world
      (waiting ++ .resumeInstruction id (pointer + 1) :: machine.pending)
    rw [processor, ← hands.enter, ← (faces.reports isCoroutine).begins] at receives
    exact receives.of_spread

/-! ### A coroutine that yields several values -/

/-- A main body that resumes a coroutine, which yields a value and a tuple. -/
def severalChunk : Chunk where
  functions := #[⟨"main", 0, 0, false⟩, ⟨"several", 4, 0, false⟩]
  code := #[.makeClosure 1 [], .createCoroutine, .resumeCoroutine 0, .ret 1,
    .literal (.boolean true), .literal .nil, .literal (.boolean false), .tuple 2, .yield 2, .ret 1]

/-- The script after this many steps: after two of them the coroutine is about to be resumed, after
seven it is about to yield, and after eleven the code of the script goes on. -/
def severalMachine (steps : Nat) : Machine Unit :=
  .sample .silent () severalChunk (.call .mainBody []) steps

/-- The value and those in the tuple are yielded and reported together. Handed back to the coroutine
they come to the same. -/
theorem several_values_reported :
    let values : List Value := [.boolean true, .tuple [.nil, .boolean false]]
    let result : Value := .tuple [.boolean true, .nil, .boolean false]
    let last := (severalMachine 11).store
    let waiting := Pending.resumeInstruction Store.main 3 :: (severalMachine 2).pending
    ((severalMachine 7).step .silent).focus = .settled (.ok (.yielded result 9)) ∧
      (∃ after later, Machine.Returns .silent waiting ((severalMachine 2).step .silent) after later
          (.ok (.yielded result 9)) ∧
        ((Machine.step .silent
          ⟨after, later, .settled (.ok (.yielded result 9)), waiting⟩).store.processor
          Store.main).values.toList = [.mainBody, countValue 0] ++
            [.tuple [.boolean true, .boolean true, .nil, .boolean false]]) ∧
      (Machine.enter (last.beginResume 1 values) () []).Receives 1 9 (last.processor 1) values := by
  intro values result last
  have transport := values_transported Host.silent values
  have flat : ∀ value ∈ values, value.Flat := by
    simp [values, Value.Flat, Value.isTuple]
  have conveys : Conveys Host.silent result [.boolean true, .nil, .boolean false] :=
    transport.conveyed (List.cons_ne_nil _ _) flat
  have yields : (severalMachine 7).Faces .silent 1 8 (.yield values.length)
      [.closure ⟨1, ⟨0, []⟩⟩, countValue 0] values := by
    constructor
    · exact ⟨_, _, _, _, reachable_sample ..⟩
    · cbv
    · cbv
    · cbv
    · decide +kernel
  have resumes :
      (severalMachine 2).Faces .silent Store.main 2 (.resumeCoroutine ([] : List Value).length)
      [.mainBody, countValue 0] [.coroutine 1] := by
    constructor
    · exact ⟨_, _, _, _, reachable_sample ..⟩
    · cbv
    · cbv
    · cbv
    · decide +kernel
  have permitted : ((severalMachine 7).store.processor 1).mayYield = true := by
    decide +kernel
  have ends : ((Machine.enter (((severalMachine 2).store.lowered Store.main 2).beginChildResume
      Store.main 1 []) (severalMachine 2).world []).run .silent 8).outcome? =
        some (.ok (.yielded result 9)) := by
    cbv
  have saved : (last.processor 1).savedPointer = some 9 := by
    decide +kernel
  have status : last.status 1 = .suspended := by
    decide +kernel
  have free : last.access 1 = .free := by
    decide +kernel
  have guard : (last.processor 1).guard = .free := by
    decide +kernel
  have thread : last.thread = 0 := by
    decide +kernel
  -- Nothing is to be evaluated from here on.
  clear_value last
  generalize severalMachine 7 = yielding at *
  generalize severalMachine 2 = resuming at *
  intro waiting
  have suspended : Suspended (last.processor 1) 9 (last.coroutine 1) := ⟨rfl, rfl, saved, status⟩
  have admits : last.Admits 1 ⟨some 0, 1⟩ := by
    refine ⟨?_, free, ?_⟩
    · rw [status]
      rfl
    · rw [Store.passGuard, guard, thread]
      rfl
  refine ⟨?_, ?_, transport.resumed suspended admits () []⟩
  · have yielded := transport.yielded yields
    rw [if_pos permitted] at yielded
    exact yielded
  · have begins := (resumes.reports rfl).begins
    have returns : Machine.Returns .silent waiting _ _ _ _ := returns_of_outcome _ _ ends
    rw [← enter_under _ resuming.world []] at returns
    exact ⟨_, _, begins ▸ returns, (conveys.reported resumes rfl (begins ▸ returns) rfl).2⟩

end CoroutineVM
