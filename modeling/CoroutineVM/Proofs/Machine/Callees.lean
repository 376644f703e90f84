import CoroutineVM.Proofs.Layout.Convention
import CoroutineVM.Proofs.Machine.Calls

/-!
# What can be called

A value is called, or made a coroutine of, as the closure that it stands for. An instruction
collapses the value before anything else, so that an error tells the kind of what it has collapsed
to. A call of the host finds the same closure, but its error tells the kind of the value that it was
given. And a function of the host that creates a coroutine does not collapse the value at all, while
its creation from outside does.

Values that are no tuples are their own collapsed form, and for those it makes no difference. The
theorems say for which tuples it does.
-/

namespace CoroutineVM

open Processor

variable {W : Type} {store : Store} {id : CoroutineId} {chunk : Chunk} {value : Value}

/-! ### The function that a value stands for -/

/-- The closure that a value stands for and its function. A value that stands for no closure is
reported as one of the given kind. -/
def Chunk.resolve (chunk : Chunk) (kind : String) (value : Value) :
    Except ScriptError (Closure × FunctionEntry) :=
  match value.collapse with
  | .closure closure =>
    match chunk.function? closure.function with
    | some function => .ok (closure, function)
    | none => .error (.undefinedFunction closure.function)
  | _ => .error (.notCallable kind)

/-- The kind that is reported where a single value is wanted: that of the collapsed value. -/
def Value.kind (value : Value) : String := value.collapse.typeName

/-- The value stands for a closure. -/
def Value.IsClosure (value : Value) : Prop := ∃ closure, value.collapse = .closure closure

/-- The ways in which a value resolves. -/
inductive Chunk.Resolves (chunk : Chunk) (kind : String) (value : Value) :
    Except ScriptError (Closure × FunctionEntry) → Prop where
  | function {closure : Closure} {function : FunctionEntry}
      (isClosure : value.collapse = .closure closure)
      (known : chunk.function? closure.function = some function) :
      Chunk.Resolves chunk kind value (.ok (closure, function))
  | missing {closure : Closure} (isClosure : value.collapse = .closure closure)
      (unknown : chunk.function? closure.function = none) :
      Chunk.Resolves chunk kind value (.error (.undefinedFunction closure.function))
  | other (other : ¬ value.IsClosure) : Chunk.Resolves chunk kind value (.error (.notCallable kind))

section

variable {kind : String} {result : Except ScriptError (Closure × FunctionEntry)}

/-- The three ways in which a value resolves are all there are, and they exclude each other. So the
proofs below go by these ways and do not open the function again. -/
theorem resolve_eq_iff : chunk.resolve kind value = result ↔ chunk.Resolves kind value result := by
  constructor
  · rintro rfl
    rw [Chunk.resolve]
    split
    next closure isClosure =>
      split
      next function known => exact .function isClosure known
      next unknown => exact .missing isClosure unknown
    next other =>
      apply Chunk.Resolves.other
      rintro ⟨closure, isClosure⟩
      exact other closure isClosure
  · intro resolves
    cases resolves with
    | function isClosure known => simp [Chunk.resolve, isClosure, known]
    | missing isClosure unknown => simp [Chunk.resolve, isClosure, unknown]
    | other other =>
      rw [Chunk.resolve]
      split
      next closure isClosure => exact absurd ⟨closure, isClosure⟩ other
      next => rfl

/-- A value resolves to a function exactly if it collapses to a closure of one that the chunk
defines. -/
theorem resolve_eq_ok_iff {closure : Closure} {function : FunctionEntry} :
    chunk.resolve kind value = .ok (closure, function) ↔
      value.collapse = .closure closure ∧ chunk.function? closure.function = some function := by
  rw [resolve_eq_iff]
  constructor
  · rintro ⟨isClosure, known⟩
    exact ⟨isClosure, known⟩
  · rintro ⟨isClosure, known⟩
    exact .function isClosure known

/-- A value resolves as its collapsed form does: what it resolves to is told by that form only. -/
theorem resolve_collapse : chunk.resolve kind value.collapse = chunk.resolve kind value := by
  simp [Chunk.resolve]

/-- The kind matters exactly for what stands for no closure, because only the error about such a
value tells it. -/
theorem resolve_kind_iff {other : String} :
    chunk.resolve kind value = chunk.resolve other value ↔ (kind ≠ other → value.IsClosure) := by
  rw [resolve_eq_iff]
  constructor
  · intro resolves different
    cases resolved : chunk.resolve other value with
    | ok found =>
      obtain ⟨isClosure, _⟩ := resolve_eq_ok_iff.mp resolved
      exact ⟨found.1, isClosure⟩
    | error error =>
      rw [resolved] at resolves
      cases resolves with
      | missing isClosure unknown => exact ⟨_, isClosure⟩
      | other stands =>
        cases resolve_eq_iff.mp resolved with
        | other stands => exact absurd rfl different
  · intro stands
    generalize resolved : chunk.resolve other value = result
    cases resolve_eq_iff.mp resolved with
    | function isClosure known => exact .function isClosure known
    | missing isClosure unknown => exact .missing isClosure unknown
    | other missing =>
      have same : kind = other :=
        Classical.byContradiction fun different => missing (stands different)
      exact same ▸ .other missing

end

namespace Value

/-- Tuples are told from all other values by the name of their kind. -/
theorem typeName_eq_tuple_iff : value.typeName = "tuple" ↔ value.isTuple = true := by
  cases value <;> simp [typeName, isTuple]

/-- No collapsed value is a tuple, so that a report which names the collapsed form never says so. -/
theorem kind_ne_tuple (value : Value) : value.kind ≠ "tuple" := by
  rw [kind, Ne, typeName_eq_tuple_iff, isTuple_collapse]
  exact Bool.false_ne_true

/-- A value is of the kind of its collapsed form exactly if it is no tuple. -/
theorem typeName_eq_kind_iff : value.typeName = value.kind ↔ value.isTuple = false := by
  constructor
  · intro same
    apply Classical.byContradiction
    intro isTuple
    rw [Bool.not_eq_false, ← typeName_eq_tuple_iff, same] at isTuple
    exact kind_ne_tuple value isTuple
  · intro single
    rw [kind, collapse_of_single single]

end Value

/-! ### Creating coroutines -/

/-- What comes of the creation of a coroutine of a value: a coroutine that has not started and will
begin with the closure, or the error that says why there is none. -/
inductive Store.Creates (store : Store) (parent : CoroutineId) (value : Value) :
    Except ScriptError CoroutineId → Store → Prop where
  | created {closure : Closure} {function : FunctionEntry}
      (resolved : store.chunk.resolve value.kind value = .ok (closure, function)) :
      Store.Creates store parent value (.ok store.coroutines.size)
        { store with coroutines := store.coroutines.push ⟨.notStarted, .free, some parent,
            .idle store.settings.valueCapacity store.settings.frameCapacity (some closure)⟩ }
  | refused {error : ScriptError} (resolved : store.chunk.resolve value.kind value = .error error) :
      Store.Creates store parent value (.error error) store

namespace Store

/-- Only a value that resolves has a coroutine created of it. -/
theorem Creates.ok_iff {parent : CoroutineId} {created : Except ScriptError CoroutineId}
    {after : Store} (creates : store.Creates parent value created after) :
    (∃ made, created = .ok made) ↔
      ∃ closure, value.collapse = .closure closure ∧
        (store.chunk.function? closure.function).isSome = true := by
  cases creates with
  | created resolved =>
    obtain ⟨isClosure, known⟩ := resolve_eq_ok_iff.mp resolved
    simp [isClosure, known]
  | refused resolved =>
    simp only [reduceCtorEq, exists_false, false_iff, not_exists, not_and, Bool.not_eq_true,
      Option.isSome_eq_false_iff, Option.isNone_iff_eq_none]
    intro closure isClosure
    cases known : store.chunk.function? closure.function with
    | some function =>
      cases resolved.symm.trans (resolve_eq_ok_iff.mpr ⟨isClosure, known⟩)
    | none => rfl

/-- The new coroutine has not started, and the closure that it will begin with is the one that the
value stands for. -/
theorem Creates.newborn {parent made : CoroutineId} {after : Store}
    (creates : store.Creates parent value (.ok made) after) :
    after.status made = .notStarted ∧
      ∃ closure, value.collapse = .closure closure ∧
        (after.processor made).entry = some closure := by
  cases creates with
  | created resolved =>
    obtain ⟨isClosure, _⟩ := resolve_eq_ok_iff.mp resolved
    simp [status, processor, coroutine, isClosure, idle]

/-- No creation is refused because of a tuple. -/
theorem not_creates_tuple (parent : CoroutineId) (after : Store) :
    ¬ store.Creates parent value (.error (.notCallable "tuple")) after := by
  intro creates
  cases creates with
  | refused resolved =>
    generalize kind : value.kind = name at resolved
    cases resolve_eq_iff.mp resolved with
    | other stands => exact Value.kind_ne_tuple value kind

/-- A creation comes to the same after the value has been collapsed. -/
theorem Creates.of_collapse {parent : CoroutineId} {created : Except ScriptError CoroutineId}
    {after : Store} (creates : store.Creates parent value.collapse created after) :
    store.Creates parent value created after := by
  have same : store.chunk.resolve value.collapse.kind value.collapse =
      store.chunk.resolve value.kind value := by
    rw [resolve_collapse, Value.kind, Value.collapse_collapse, Value.kind]
  cases creates with
  | created resolved => exact .created (same.symm.trans resolved)
  | refused resolved => exact .refused (same.symm.trans resolved)

/-- Where nothing is collapsed a tuple is refused as a tuple. -/
theorem spawn_tuple (isTuple : value.isTuple = true) (parent : CoroutineId) (store : Store) :
    spawn parent value store = (.error (.notCallable "tuple"), store) := by
  cases value with
  | tuple items => rfl
  | _ => cases isTuple

/-- A coroutine is created of a value that is no tuple as it should be, since such a value is its
own collapsed form. -/
theorem spawn_single (single : value.isTuple = false) (parent : CoroutineId) (store : Store) :
    store.Creates parent value (spawn parent value store).1 (spawn parent value store).2 := by
  have itself := Value.collapse_of_single single
  cases resolved : store.chunk.resolve value.kind value with
  | ok found =>
    obtain ⟨isClosure, known⟩ := resolve_eq_ok_iff.mp resolved
    have looked := entryPoint_of_function known
    obtain rfl : value = .closure found.1 := itself.symm.trans isClosure
    simp only [spawn, bind, Attempt.andThen, Attempt.check, looked]
    exact .created resolved
  | error error =>
    have refused : spawn parent value store = (.error error, store) := by
      cases resolve_eq_iff.mp resolved with
      | @missing closure isClosure unknown =>
        obtain rfl : value = .closure closure := itself.symm.trans isClosure
        simp [spawn, bind, Attempt.andThen, Attempt.check, Chunk.entryPoint, unknown]
      | other stands =>
        rw [Value.kind, itself]
        cases value with
        | closure closure => exact absurd ⟨closure, rfl⟩ stands
        | _ => rfl
    rw [refused]
    exact .refused resolved

/-- Where nothing is collapsed the creation comes to what it should exactly if the value is no
tuple. -/
theorem spawn_creates_iff (parent : CoroutineId) (store : Store) :
    store.Creates parent value (spawn parent value store).1 (spawn parent value store).2 ↔
      value.isTuple = false := by
  constructor
  · intro creates
    apply Classical.byContradiction
    intro isTuple
    rw [Bool.not_eq_false] at isTuple
    rw [spawn_tuple isTuple] at creates
    exact not_creates_tuple parent store creates
  · intro single
    exact spawn_single single parent store

end Store

/-- The others are as they were after a creation. -/
theorem Store.Creates.coroutine {parent : CoroutineId} {created : Except ScriptError CoroutineId}
    {after : Store} (creates : store.Creates parent value created after) (there : store.Has id) :
    after.Has id ∧ after.coroutine id = store.coroutine id := by
  cases creates with
  | created resolved =>
    constructor
    · simpa [Has] using Nat.lt_succ_of_lt there
    · exact coroutine_push_other (Nat.ne_of_lt there)
  | refused resolved => exact ⟨there, rfl⟩

/-- The instruction takes the value away, creates a coroutine of it and pushes the coroutine. There
is room for that where the value has been. -/
theorem Store.execute_createCoroutine {below : List Value} (next : Nat) (there : store.Has id)
    (values : (store.processor id).values.toList = below ++ [value])
    (window : (store.processor id).base ≤ below.length)
    (room : (store.processor id).values.height ≤ (store.processor id).values.capacity) :
    let popped := store.modifyProcessor id fun _ => (store.processor id).lowered below.length
    ∃ created after, popped.Creates id value created after ∧
      execute id .createCoroutine next store = match created with
        | .ok made => (.ok (.goto next), after.modifyProcessor id fun _ =>
            ((store.processor id).lowered below.length).stack [.coroutine made])
        | .error error => (.error error, after) := by
  intro popped
  have taken : onProcessor id pop store = (.ok value, popped) :=
    onProcessor_run (pop_operand values window)
  have still : popped.Has id := (has_modifyCoroutine ..).mpr there
  have creates := (spawn_single value.isTuple_collapse id popped).of_collapse
  rw [execute, Attempt.bind_of_ok taken]
  cases spawned : spawn id value.collapse popped with
  | mk created after =>
    rw [spawned] at creates
    refine ⟨created, after, creates, ?_⟩
    cases created with
    | error error => exact Attempt.bind_of_error spawned
    | ok made =>
      have processor : after.processor id = (store.processor id).lowered below.length := by
        rw [Store.processor, (creates.coroutine still).2]
        exact processor_modifyProcessor there _
      have height := congrArg List.length values
      rw [BoundedStack.length_toList, List.length_append, List.length_singleton] at height
      have pushed := push_stack (.coroutine made)
        (show (after.processor id).values.height < (after.processor id).values.capacity by
          rw [processor]
          simp [lowered]
          omega)
      rw [Attempt.bind_of_ok spawned, Attempt.bind_of_ok (onProcessor_run pushed), processor]
      rfl

/-- How coroutines are created of a value. Creation from outside and the instruction come to the
same for every value. A function of the host does so for those that are no tuples, and is refused
every tuple. -/
structure Creation (chunk : Chunk) (value : Value) : Prop where
  /-- A coroutine comes of it exactly if the value collapses to a closure of a function that the
  chunk defines. -/
  succeeds :
    ∀ {store after : Store} {parent : CoroutineId} {created : Except ScriptError CoroutineId},
    store.chunk = chunk → store.Creates parent value created after →
    ((∃ made, created = .ok made) ↔ ∃ closure, value.collapse = .closure closure ∧
      (chunk.function? closure.function).isSome = true)
  /-- The coroutine has not started, and the closure is what it will begin with. -/
  begins : ∀ {store after : Store} {parent made : CoroutineId},
    store.Creates parent value (.ok made) after → after.status made = .notStarted ∧
      ∃ closure, value.collapse = .closure closure ∧ (after.processor made).entry = some closure
  fromOutside : ∀ {W : Type} {store : Store} (world : W), store.chunk = chunk →
    ∃ created after, store.Creates Store.main value created after ∧
      Machine.enter ((Operation.create value).begin store) world [] =
        ⟨after, world, .settled (created.map fun made => .returned (.coroutine made)), []⟩
  /-- The instruction takes the value from the window and always has room for the coroutine. -/
  fromCode : ∀ {W : Type} {host : Host W} {settings : Settings} {thread : ThreadId}
    {operations : List Operation} {machine : Machine W} {id : CoroutineId} {pointer : Nat}
    {below : List Value}, Machine.Reachable host
      (.initial chunk settings thread) operations machine →
    machine.focus = .code id pointer → chunk.instruction? pointer = some .createCoroutine →
    (machine.store.processor id).values.toList = below ++ [value] →
    (machine.store.processor id).base ≤ below.length →
    let processor := (machine.store.processor id).lowered below.length
    ∃ created after,
      (machine.store.modifyProcessor id fun _ => processor).Creates id value created after ∧
      machine.step host = match created with
        | .ok made => ⟨after.modifyProcessor id fun _ => processor.stack [.coroutine made],
            machine.world, .code id (pointer + 1), machine.pending⟩
        | .error error => ⟨after, machine.world, .settled (.error error), machine.pending⟩
  fromFunction : ∀ {W : Type} {host : Host W} {store : Store} {id : CoroutineId} {event : HostEvent}
    {world later : W} (pending : List Pending), store.chunk = chunk →
    host.respond id event store world = (later, .create value) →
    ∃ created after,
      Machine.step host ⟨store, world, .host id event, pending⟩ =
        ⟨after, later, .host id (.created created), pending⟩ ∧
      (store.Creates id value created after ↔ value.isTuple = false) ∧
      (value.isTuple = true → created = .error (.notCallable "tuple") ∧ after = store)

/-- What a value has to be for a coroutine to be created of it is the same from outside and in code.
It is the same in a function of the host exactly for the values that are no tuples. -/
theorem creation_of_value (chunk : Chunk) (value : Value) : Creation chunk value where
  succeeds sameChunk creates := by
    subst sameChunk
    exact creates.ok_iff
  begins creates := creates.newborn
  fromOutside {W store} world sameChunk :=
    ⟨_, _, (Store.spawn_single value.isTuple_collapse Store.main store).of_collapse, rfl⟩
  fromCode {W host settings thread operations machine id pointer below} reached coding found values
      window := by
    intro processor
    obtain ⟨sound, lasts⟩ := reachable_sound (guardsAllowed host operations) reached
    obtain ⟨store, world, focus, pending⟩ := machine
    obtain rfl : focus = .code id pointer := coding
    have same : store.chunk = chunk := lasts.chunk
    have room := (sound.coroutines id).supplied.roomy.room
    obtain ⟨created, after, creates, run⟩ :=
      Store.execute_createCoroutine (pointer + 1) (sound.known rfl) values window room
    refine ⟨created, after, creates, ?_⟩
    rw [← same] at found
    cases created with
    | ok made => exact Machine.step_goto host world pending found run
    | error error => simp only [Machine.step, Machine.stepCode, found, run]
  fromFunction {W host store id event world later} pending sameChunk asks := by
    refine ⟨_, _, ?_, Store.spawn_creates_iff id store, ?_⟩
    · simp only [Machine.step, asks, Machine.stepRequest]
    · intro isTuple
      rw [Store.spawn_tuple isTuple]
      exact ⟨rfl, rfl⟩

/-- A host whose functions ask for a coroutine of the main body, which they give as a tuple. -/
def Host.createsOfTuple : Host Unit where
  respond := fun _ event _ world =>
    match event with
    | .invoked _ _ => (world, .create (.tuple [.mainBody]))
    | _ => (world, .finish (.ok .nil))
  executionEnded := fun _ _ _ world => (world, none)

/-- A main body that creates a coroutine of itself, which it gives as a tuple, and then calls a
function of the host. -/
def creatingChunk : Chunk where
  functions := #[⟨"main", 0, 0, false⟩]
  code := #[.makeClosure 0 [], .tuple 1, .createCoroutine, .loadGlobal "back", .call 0, .ret 1]

/-- So many steps after the main body has been called. -/
def creatingMachine (steps : Nat) : Machine Unit :=
  .run .createsOfTuple steps
    (.enter
      ((Operation.call .mainBody []).begin ((Store.sample creatingChunk).edit callbackEdit)) () [])

/-- The machines of this example are reached: they are so many steps after the second operation. -/
theorem reachable_creatingMachine (steps : Nat) :
    Machine.Reachable Host.createsOfTuple (.sample creatingChunk)
      [.call .mainBody [], .edit callbackEdit] (creatingMachine steps) := by
  apply Exists.intro ()
  apply Machine.Leads.run
  exact .operates _ () (.operates (.edit callbackEdit) () .stays rfl) rfl

/-- The instruction creates a coroutine of the tuple. The machine stands at it after two steps of
the main body. -/
theorem tuple_created_in_code :
    let processor := ((creatingMachine 2).store.processor Store.main).lowered 2
    ∃ made after, ((creatingMachine 2).store.modifyProcessor Store.main fun _ => processor).Creates
        Store.main (.tuple [.mainBody]) (.ok made) after ∧
      (creatingMachine 2).step .createsOfTuple =
        ⟨after.modifyProcessor Store.main fun _ => processor.stack [.coroutine made],
          (creatingMachine 2).world, .code Store.main 3, (creatingMachine 2).pending⟩ := by
  have coding : (creatingMachine 2).focus = .code Store.main 2 := by
    cbv
  have found : creatingChunk.instruction? 2 = some .createCoroutine := rfl
  have values : ((creatingMachine 2).store.processor Store.main).values.toList =
      [.mainBody, countValue 0] ++ [.tuple [.mainBody]] := by
    cbv
  have window : ((creatingMachine 2).store.processor Store.main).base ≤ 2 := by
    decide +kernel
  have same : (creatingMachine 2).store.chunk = creatingChunk := by
    cbv
  have reached := reachable_creatingMachine 2
  generalize creatingMachine 2 = machine at *
  intro processor
  have creation := creation_of_value creatingChunk (.tuple [.mainBody])
  obtain ⟨created, after, creates, steps⟩ := creation.fromCode reached coding found values window
  obtain ⟨made, rfl⟩ := (creation.succeeds (by exact same) creates).mpr ⟨_, rfl, rfl⟩
  exact ⟨made, after, creates, steps⟩

/-- A function of the host is refused the tuple where the instruction and a creation from outside
are not. -/
theorem tuple_refused_in_function :
    ((creatingMachine 2).store.processor Store.main).values.toList.getLast? =
        some (.tuple [.mainBody]) ∧
      ((creatingMachine 2).step .createsOfTuple).focus = .code Store.main 3 ∧
      (creatingMachine 5).focus.begins? = some Store.main ∧
      ((creatingMachine 5).step .createsOfTuple).focus =
        .host Store.main (.created (.error (.notCallable "tuple"))) ∧
      (Store.createCoroutine (.tuple [.mainBody]) (creatingMachine 5).store).1 = .ok 2 := by
  have top : ((creatingMachine 2).store.processor Store.main).values.toList.getLast? =
      some (.tuple [.mainBody]) := by
    cbv
  have created : ((creatingMachine 2).step .createsOfTuple).focus = .code Store.main 3 := by
    cbv
  have begins : (creatingMachine 5).focus.begins? = some Store.main := by
    decide +kernel
  have refused : ((creatingMachine 5).step .createsOfTuple).focus =
      .host Store.main (.created (.error (.notCallable "tuple"))) := by
    cbv
  have outside :
      (Store.createCoroutine (.tuple [.mainBody]) (creatingMachine 5).store).1 = .ok 2 := by
    cbv
  exact ⟨top, created, begins, refused, outside⟩

/-! ### Calling values -/

section

variable {host : Host W} {callee : Value} {arguments : List Value} {error : ScriptError}

/-- The host is refused a value that does not resolve, before anything is pushed. So the stacks are
as they were. -/
theorem Processor.enterFromHost_refused (arguments : List Value) (processor : Processor)
    (resolved : chunk.resolve callee.typeName callee = .error error) :
    enterFromHost chunk (some callee) arguments processor = (.error error, processor) := by
  rw [enterFromHost, Attempt.read_bind]
  simp only [Option.getD_some]
  generalize callee.typeName = kind at *
  cases resolve_eq_iff.mp resolved with
  | @missing closure isClosure unknown =>
    have missed : (fun _ : Processor => chunk.entryPoint closure) processor =
        .error (.undefinedFunction closure.function) := by
      simp only [Chunk.entryPoint, unknown]
    rw [isClosure]
    exact Attempt.check_bind_of_error missed
  | other stands =>
    cases collapsed : callee.collapse with
    | closure closure => exact absurd ⟨closure, collapsed⟩ stands
    | _ => rfl

/-- The instruction takes its operands before it is refused a value that does not resolve. That is
where the two ways differ, apart from the kind in the error. -/
theorem Store.execute_call_refused {below operands : List Value} {count : Nat} (next : Nat)
    (there : store.Has id) (notHost : ∀ function, callee.collapse ≠ .host function)
    (resolved : store.chunk.resolve callee.kind callee = .error error)
    (values : (store.processor id).values.toList = below ++ callee :: operands)
    (length : operands.length = count) (window : (store.processor id).base ≤ below.length) :
    execute id (.call count) next store = (.error error, store.modifyProcessor id fun _ =>
      (store.processor id).lowered below.length) := by
  refine Eq.trans (take_operands there values length window _) ?_
  generalize named : callee.kind = kind at resolved
  cases resolve_eq_iff.mp resolved with
  | @missing closure isClosure unknown =>
    rw [isClosure]
    exact Attempt.check_bind_of_error (show store.chunk.entryPoint closure = _ by
      simp only [Chunk.entryPoint, unknown])
  | other stands =>
    rw [← named, Value.kind]
    cases collapsed : callee.collapse with
    | closure closure => exact absurd ⟨closure, collapsed⟩ stands
    | host function => exact absurd collapsed (notHost function)
    | _ => rfl

/-- The machine is where a call leads: in the function, on a processor that is as the convention
says, or at an error, which those who wait outside will get. -/
def Machine.Answers (host : Host W) (outer : List Pending) (machine : Machine W) (id : CoroutineId)
    (arguments : List Value) (returnPoint : ReturnPoint) (processor : Processor) :
    Except ScriptError (Closure × FunctionEntry) → Prop
  | .ok (closure, function) => machine.At id function.entryPoint
      (called closure function.entryPoint arguments returnPoint processor)
  | .error error => machine.focus = .settled (.error error) ∧
      ∃ after later, Machine.Returns host outer machine after later (.error error)

/-- How a value is called. Host and code find the same function, or they are told errors that differ
in the kind at most. -/
structure Calling (chunk : Chunk) (callee : Value) (arguments : List Value) : Prop where
  fromHost : ∀ {W : Type} (host : Host W) {store : Store} {id : CoroutineId} {guard : ThreadGuard}
    (world : W) (outer : List Pending), store.chunk = chunk → store.Has id →
    store.passGuard id = .ok guard → RoomFor arguments (store.processor id) →
    Machine.Answers host outer
      (Machine.enter (store.beginCall id (some callee) arguments) world outer) id
      arguments .host { store.processor id with guard := guard, mayYield := false }
      (chunk.resolve callee.typeName callee)
  /-- The script's own processor is free to be called through its handle. -/
  throughScript : ∀ {W : Type} (host : Host W) {store : Store} {guard : ThreadGuard} (world : W)
    (outer : List Pending), store.chunk = chunk → store.Has Store.main →
    store.access Store.main = .free → store.passGuard Store.main = .ok guard →
    RoomFor arguments (store.processor Store.main) →
    Machine.Answers host outer (Machine.enter (store.beginScriptCall callee arguments) world outer)
      Store.main arguments .host
        { store.processor Store.main with guard := guard, mayYield := false }
      (chunk.resolve callee.typeName callee)
  fromCode : ∀ {W : Type} (host : Host W) {store : Store} {id : CoroutineId} {pointer : Nat}
    {below : List Value} (world : W) (pending : List Pending), store.chunk = chunk → store.Has id →
    chunk.instruction? pointer = some (.call arguments.length) →
    (store.processor id).values.toList = below ++ callee :: arguments →
    (store.processor id).base ≤ below.length →
    RoomFor arguments ((store.processor id).lowered below.length) →
    Machine.Answers host pending (Machine.step host ⟨store, world, .code id pointer, pending⟩) id
      arguments (.instruction (pointer + 1)) ((store.processor id).lowered below.length)
      (chunk.resolve callee.kind callee)
  /-- The kinds make a difference for tuples that stand for no closure. -/
  agree : chunk.resolve callee.typeName callee = chunk.resolve callee.kind callee ↔
    (callee.isTuple = true → callee.IsClosure)

/-- An admitted call answers its callee as the closure that it stands for, and an error names the
kind of the callee as it was given. There is room for what the call pushes, so that nothing but the
callee decides how it begins. -/
theorem answers_beginCall {guard : ThreadGuard} (world : W) (outer : List Pending)
    (there : store.Has id) (admitted : store.passGuard id = .ok guard)
    (room : RoomFor arguments (store.processor id)) :
    Machine.Answers host outer
      (Machine.enter (store.beginCall id (some callee) arguments) world outer) id
      arguments .host { store.processor id with guard := guard, mayYield := false }
      (store.chunk.resolve callee.typeName callee) := by
  cases resolved : store.chunk.resolve callee.typeName callee with
  | ok found =>
    obtain ⟨isClosure, known⟩ := resolve_eq_ok_iff.mp resolved
    rw [enter_beginCall there admitted
      (enterFromHost_called isClosure known ⟨room.values, room.frames⟩)]
    exact Machine.at_changed there _
  | error error =>
    rw [enter_beginCall there admitted (Processor.enterFromHost_refused arguments _ resolved)]
    exact ⟨rfl, _, _, .onward (fun _ _ => List.cons_ne_self _ _) (.back _ _ _)⟩

/-- What the one who gives the processor back is told, those outside are told next. -/
theorem Machine.Answers.released {outer : List Pending} {machine isolated : Machine W}
    {returnPoint : ReturnPoint} {processor : Processor}
    {result : Except ScriptError (Closure × FunctionEntry)}
    (isUnder : machine = isolated.under (.release Store.main :: outer))
    (answers : Machine.Answers host (.release Store.main :: outer) machine id arguments returnPoint
      processor result) :
    Machine.Answers host outer machine id arguments returnPoint processor result := by
  cases result with
  | ok found => exact answers
  | error error =>
    obtain ⟨failed, after, later, returns⟩ := answers
    exact ⟨failed, _, later, returns.rejoin isolated isUnder (.back _ later _)⟩

/-- A value that stands for no function of the host is called by the host as by code, but for the
kind in the error of a tuple that stands for no closure. -/
theorem calling_of_value (chunk : Chunk) (notHost : ∀ function, callee.collapse ≠ .host function)
    (arguments : List Value) : Calling chunk callee arguments where
  fromHost {W} host {store id guard} world outer sameChunk there admitted room := by
    subst sameChunk
    exact answers_beginCall world outer there admitted room
  throughScript {W} host {store guard} world outer sameChunk there free admitted room := by
    subst sameChunk
    have processor : (store.setAccess Store.main .executing).processor Store.main =
        store.processor Store.main := by
      rw [Store.processor, Store.setAccess, Store.coroutine_modifyCoroutine there, Store.processor]
    have still : (store.setAccess Store.main .executing).Has Store.main :=
      (Store.has_modifyCoroutine ..).mpr there
    rw [← processor] at room ⊢
    have admitted : (store.setAccess Store.main .executing).passGuard Store.main = .ok guard := by
      rw [Store.passGuard, processor]
      exact admitted
    rw [Store.beginScriptCall, enter_borrowing free]
    exact (answers_beginCall world _ still admitted room).released (enter_under _ world [])
  fromCode {W} host {store id pointer below} world pending sameChunk there found values window
    room := by
    subst sameChunk
    cases resolved : store.chunk.resolve callee.kind callee with
    | ok closure =>
      obtain ⟨isClosure, known⟩ := resolve_eq_ok_iff.mp resolved
      have run := Store.execute_call (pointer + 1) there known isClosure values rfl window room
      rw [Machine.step_goto host world pending found run]
      exact Machine.at_changed there _
    | error error =>
      have run := Store.execute_call_refused (pointer + 1) there notHost resolved values rfl window
      simp only [Machine.step, Machine.stepCode, found, run]
      exact ⟨rfl, _, _, .back _ world _⟩
  agree := by
    rw [resolve_kind_iff, Ne, Value.typeName_eq_kind_iff, Bool.not_eq_false]

end

/-- A main body that calls a tuple of one value, which its first instruction gives. -/
def tupleChunk (first : Instruction) : Chunk where
  functions := #[⟨"main", 0, 0, false⟩]
  code := #[first, .tuple 1, .call 0, .ret 0]

/-- The script when the tuple is about to be called. -/
def tupleMachine (first : Instruction) : Machine Unit :=
  .sample .silent () (tupleChunk first) (.call .mainBody []) 2

/-- A main body calls itself in a tuple, and a host calls it in the same way. Both find the closure
in the tuple and push the same slots. -/
theorem tuple_called :
    let callee : Value := .tuple [.mainBody]
    let store := Store.sample (tupleChunk (.makeClosure 0 []))
    let machine := tupleMachine (.makeClosure 0 [])
    (∀ function, callee.collapse ≠ .host function) ∧
      (Machine.enter (store.beginScriptCall callee []) () []).At Store.main 0
        (called ⟨0, ⟨0, []⟩⟩ 0 [] .host
          { store.processor Store.main with guard := ⟨some 0, 1⟩, mayYield := false }) ∧
      (machine.step .silent).At Store.main 0
        (called ⟨0, ⟨0, []⟩⟩ 0 [] (.instruction 3)
          ((machine.store.processor Store.main).lowered 2)) := by
  have notHost : ∀ function, (Value.tuple [.mainBody]).collapse ≠ .host function :=
    fun function => Value.noConfusion
  have calling := calling_of_value (tupleChunk (.makeClosure 0 [])) notHost []
  have coding : (tupleMachine (.makeClosure 0 [])).focus = .code Store.main 2 := by
    cbv
  have same : (tupleMachine (.makeClosure 0 [])).store.chunk = tupleChunk (.makeClosure 0 []) := by
    cbv
  have there : (tupleMachine (.makeClosure 0 [])).store.Has Store.main := by
    rw [Store.Has]
    decide +kernel
  have values : ((tupleMachine (.makeClosure 0 [])).store.processor Store.main).values.toList =
      [.mainBody, countValue 0] ++ .tuple [.mainBody] :: [] := by
    cbv
  have window : ((tupleMachine (.makeClosure 0 [])).store.processor Store.main).base ≤ 2 := by
    decide +kernel
  have inside :
      RoomFor [] (((tupleMachine (.makeClosure 0 [])).store.processor Store.main).lowered 2) :=
    ⟨by decide +kernel, by decide +kernel⟩
  have isCall : (tupleChunk (.makeClosure 0 [])).instruction? 2 =
      some (.call ([] : List Value).length) := rfl
  have resolved (kind : String) :
      (tupleChunk (.makeClosure 0 [])).resolve kind (.tuple [.mainBody]) =
      .ok (⟨0, ⟨0, []⟩⟩, ⟨"main", 0, 0, false⟩) := rfl
  have main : (Store.sample (tupleChunk (.makeClosure 0 []))).Has Store.main := Nat.zero_lt_one
  have free : (Store.sample (tupleChunk (.makeClosure 0 []))).access Store.main = .free := rfl
  have admitted : (Store.sample (tupleChunk (.makeClosure 0 []))).passGuard Store.main =
      .ok ⟨some 0, 1⟩ := rfl
  have room : RoomFor [] ((Store.sample (tupleChunk (.makeClosure 0 []))).processor Store.main) :=
    ⟨by decide, by decide⟩
  generalize tupleMachine (.makeClosure 0 []) = machine at *
  obtain ⟨found, world, focus, pending⟩ := machine
  obtain rfl : focus = .code Store.main 2 := coding
  have outside := calling.throughScript .silent () [] rfl main free admitted room
  have inCode := calling.fromCode .silent () pending same there isCall values window inside
  rw [resolved] at outside inCode
  exact ⟨notHost, outside, inCode⟩

/-- Code that calls a tuple with true in it is told that a boolean cannot be called, and a host that
calls the same tuple is told that a tuple cannot. -/
theorem tuple_reported_differently :
    ((tupleMachine (.literal (.boolean true))).store.processor Store.main).values.toList.getLast? =
        some (.tuple [.boolean true]) ∧
      ((tupleMachine (.literal (.boolean true))).run .silent 3).failure? =
        some (.notCallable "boolean") ∧
      (Machine.sample .silent () (tupleChunk (.literal (.boolean true)))
          (.call (.tuple [.boolean true]) []) 2).failure? = some (.notCallable "tuple") := by
  have top : ((tupleMachine (.literal (.boolean true))).store.processor
      Store.main).values.toList.getLast? = some (.tuple [.boolean true]) := by
    cbv
  have inside : ((tupleMachine (.literal (.boolean true))).run .silent 3).failure? =
      some (.notCallable "boolean") := by
    decide +kernel
  have outside : (Machine.sample .silent () (tupleChunk (.literal (.boolean true)))
      (.call (.tuple [.boolean true]) []) 2).failure? = some (.notCallable "tuple") := by
    decide +kernel
  exact ⟨top, inside, outside⟩

end CoroutineVM
