import CoroutineVM.Proofs.Contents.Processors
import CoroutineVM.Proofs.Store.Operators
import CoroutineVM.Proofs.Store.View

/-!
# What an instruction may bring into a store

A store obeys a regime when its processors do and nothing in its tables and cells is outside of the
regime. Instructions uphold this with two exceptions, which are about what nobody can tell from a
single value: a new closure has to be one that there may be, and the arguments that are copied into
a tuple have to be as the regime asks. `Flow.Obeys` says where the code can go on after an
instruction.
-/

namespace CoroutineVM

/-- Nothing in the table is outside of the regime, and it has only values that tables can have. -/
def Table.Obeys (regime : Regime) (table : Table) : Prop :=
  ∀ entry ∈ table.entries, regime.Allows entry.2 ∧ entry.2.isEntry = true

/-- How an instruction can end within a regime. -/
inductive Flow.Obeys (regime : Regime) (instruction : Instruction) (next : Nat) : Flow → Prop where
  | onward : Obeys regime instruction next (.goto next)
  | jumps {target : Nat} (jumps : instruction.jumpTarget? = some target) :
      Obeys regime instruction next (.goto target)
  | enters {pointer : Nat} (enters : regime.chunk.Enters pointer) :
      Obeys regime instruction next (.goto pointer)
  | returns {pointer : Nat} (leaves : instruction.isReturn = true)
      (follows : regime.chunk.Follows Instruction.isCall pointer) :
      Obeys regime instruction next (.goto pointer)
  | returned {value : Value} (carried : regime.Carried value) :
      Obeys regime instruction next (.returned value)
  | yielded {value : Value} (stops : instruction.isYield = true) (carried : regime.Carried value) :
      Obeys regime instruction next (.yielded value next)
  | callsHost {function : HostFunction} {arguments : List Value} (calls : instruction.isCall = true)
      (given : ∀ argument ∈ arguments, regime.Carried argument) :
      Obeys regime instruction next (.callHost function arguments next)
  | resumes {target : CoroutineId} {arguments : List Value} (resumes : instruction.isResume = true)
      (given : ∀ argument ∈ arguments, regime.Carried argument) :
      Obeys regime instruction next (.resume target arguments next)

section

variable {regime : Regime} {table : Table} {value : Value}

/-- What is stored in a table is collapsed first, and nil is not stored. -/
theorem Table.Obeys.set (obeys : table.Obeys regime) (name : String)
    (allowed : regime.Allows value) :
    (table.set name value).Obeys regime := by
  have rest : (table.erase name).Obeys regime := fun entry member =>
    obeys entry (List.mem_filter.mp member |>.1)
  rw [Table.set]
  split
  next => exact rest
  next notNil =>
    exact List.forall_mem_cons.mpr ⟨⟨allowed.collapse, Value.isEntry_collapse notNil⟩, rest⟩

/-- What is found in a table may lie on a stack: it is admitted, and what can be stored there is no
tuple. -/
theorem Table.Obeys.get (obeys : table.Obeys regime) (name : String) :
    regime.Carried (table.get name) := by
  rw [Table.get]
  split
  next entry found =>
    obtain ⟨allowed, isEntry⟩ := obeys entry (List.mem_of_find?_eq_some found)
    exact allowed.carried (Value.isTuple_of_isEntry isEntry)
  next => exact Regime.carried_plain rfl (fun _ => Value.noConfusion)

end

namespace Store

/-- Nothing in the store is outside of the regime. -/
structure Obeys (regime : Regime) (store : Store) : Prop where
  chunk : store.chunk = regime.chunk
  tables : ∀ table ∈ store.tables.contents.toList, table.Obeys regime
  cells : ∀ value ∈ store.cells.toList, regime.Kept value
  processors : ∀ id, (store.processor id).Obeys regime

variable {regime : Regime} {store : Store} {id : CoroutineId} {α : Type} {shape : α → Prop}

/-- An attempt that upholds the regime and comes to a result as stated. -/
abbrev Upholds (regime : Regime) (shape : α → Prop) (attempt : Attempt Store α) : Prop :=
  attempt.Upholds (Obeys regime) regime.raised shape

/-- An error that names no function is within every regime. -/
theorem upholds_fails {error : ScriptError}
    (other : ∀ function, error ≠ .undefinedFunction function) :
    Upholds regime shape (Attempt.fail error) := Attempt.upholds_fail (regime.raises error other)

/-! ### Parts of a store -/

/-- A coroutine that is exchanged for one whose processor obeys. -/
theorem Obeys.modifyCoroutine (obeys : store.Obeys regime) (id : CoroutineId)
    {change : Coroutine → Coroutine}
    (kept : (change (store.coroutine id)).processor.Obeys regime) :
    (store.modifyCoroutine id change).Obeys regime where
  chunk := obeys.chunk
  tables := obeys.tables
  cells := obeys.cells
  processors := by
    intro other
    rw [Store.processor]
    obtain same | ⟨rfl, _, changed⟩ := coroutine_modify_cases store id other change
    · rw [same]
      exact obeys.processors other
    · rw [changed]
      exact kept

/-- Everything but the processors, the tables and the cells may change at will. -/
theorem Obeys.congr {after : Store} (obeys : store.Obeys regime) (chunk : after.chunk = store.chunk)
    (tables : after.tables = store.tables) (cells : after.cells = store.cells)
    (coroutines : after.coroutines = store.coroutines) : after.Obeys regime where
  chunk := chunk.trans obeys.chunk
  tables := tables ▸ obeys.tables
  cells := cells ▸ obeys.cells
  processors := fun id => by
    rw [Store.processor, coroutine_congr coroutines]
    exact obeys.processors id

/-- A table is written to with an admitted value; that it is no tuple is seen to by the table, which
does not store one. -/
theorem Obeys.setTable (obeys : store.Obeys regime) (table : TableId) (name : String)
    {value : Value} (allowed : regime.Allows value) :
    Obeys regime { store with tables := store.tables.set table name value } where
  chunk := obeys.chunk
  tables := fun changed member => by
    obtain ⟨index, inside, rfl⟩ := List.getElem_of_mem member
    simp only [Tables.set, Array.getElem_toList, Array.getElem_modify]
    simp only [Tables.set, Array.length_toList, Array.size_modify] at inside
    have old := obeys.tables _ (Array.getElem_mem_toList inside)
    split
    · exact old.set name allowed
    · exact old
  cells := obeys.cells
  processors := obeys.processors

/-- A global may lie on a stack, be it set or not: one that is not set is nil. -/
theorem Obeys.getGlobal (obeys : store.Obeys regime) (name : String) :
    regime.Carried (store.getGlobal name) := by
  rw [Store.getGlobal, Tables.get, Tables.table]
  cases found : store.tables.contents[Store.globals]? with
  | none => exact Regime.carried_plain rfl (fun _ => Value.noConfusion)
  | some table =>
    rw [← Array.getElem?_toList] at found
    exact (obeys.tables table (List.mem_of_getElem? found)).get name

/-- So may what is in a cell. -/
theorem Obeys.readCell (obeys : store.Obeys regime) (cell : CellId) :
    regime.Carried (store.readCell cell) := by
  rw [Store.readCell]
  cases found : store.cells[cell]? with
  | none => exact Regime.carried_plain rfl (fun _ => Value.noConfusion)
  | some value =>
    rw [← Array.getElem?_toList] at found
    exact (obeys.cells value (List.mem_of_getElem? found)).carried

/-- A cell is written to with a value that may be in one, and the others stay. -/
theorem Obeys.writeCell (obeys : store.Obeys regime) (cell : CellId) {value : Value}
    (kept : regime.Kept value) : (store.writeCell cell value).Obeys regime where
  chunk := obeys.chunk
  tables := obeys.tables
  cells := fun stored member => by
    rw [Store.writeCell, Array.toList_setIfInBounds] at member
    obtain among | rfl := List.mem_or_eq_of_mem_set member
    · exact obeys.cells stored among
    · exact kept
  processors := obeys.processors

/-- A new cell holds a value that may be in one. -/
theorem Obeys.pushCell (obeys : store.Obeys regime) {value : Value} (kept : regime.Kept value) :
    Obeys regime { store with cells := store.cells.push value } where
  chunk := obeys.chunk
  tables := obeys.tables
  cells := by
    dsimp only
    rw [Array.toList_push]
    exact List.forall_mem_append.mpr ⟨obeys.cells, List.forall_mem_singleton.mpr kept⟩
  processors := obeys.processors

/-! ### Parts of instructions -/

/-- An attempt on a processor changes that one only. -/
theorem obeys_onProcessor (obeys : store.Obeys regime) {attempt : Attempt Processor α}
    (ends :
      attempt.Ends (store.processor id) (fun result after => shape result ∧ after.Obeys regime)
      (fun error after => regime.raised error ∧ after.Obeys regime)) :
    (onProcessor id attempt).Ends store (fun result after => shape result ∧ after.Obeys regime)
      (fun error after => regime.raised error ∧ after.Obeys regime) := by
  rw [Attempt.Ends] at ends
  rw [Attempt.Ends, onProcessor_eq]
  split at ends
  next reached =>
    rw [reached]
    exact ⟨ends.1, obeys.modifyCoroutine id ends.2⟩
  next reached =>
    rw [reached]
    exact ⟨ends.1, obeys.modifyCoroutine id ends.2⟩

/-- What upholds the regime on a processor does so on every processor of a store. -/
theorem upholds_onProcessor {attempt : Attempt Processor α}
    (upholds : Processor.Upholds regime shape attempt) (id : CoroutineId) :
    Upholds regime shape (onProcessor id attempt) := by
  intro store obeys
  exact obeys_onProcessor obeys (upholds _ (obeys.processors id))

/-- Making a cell upholds the regime if the value may be in one. -/
theorem upholds_createCell {value : Value} (kept : regime.Kept value) :
    Upholds regime (fun _ => True) (createCell value) := fun _ obeys =>
  Attempt.ends_ok rfl ⟨trivial, obeys.pushCell kept⟩

/-- A capture makes a cell of a local, collapsed, or takes one that is there. -/
theorem upholds_capture (capture : Capture) :
    Upholds regime (fun _ => True) (Store.capture id capture) := by
  cases capture with
  | copyLocal index =>
    exact Attempt.upholds_bind (upholds_onProcessor (Processor.upholds_loadLocal index) id)
      fun value carried => upholds_createCell carried.allowed.kept_collapse
  | shareUpvalue index => exact upholds_onProcessor (Processor.upholds_upvalueCell index) id

/-- A coroutine is created of a closure that there may be. Its stacks are empty, so that the closure
is all that it brings. -/
theorem upholds_spawn (parent : CoroutineId) {function : Value} (allowed : regime.Allows function) :
    Upholds regime (fun _ => True) (spawn parent function) := by
  unfold spawn
  split
  next closure =>
    have good := allowed closure (.itself closure)
    refine Attempt.upholds_bind (Attempt.upholds_check (fun _ _ _ _ => trivial) ?_) fun _ _ => ?_
    · intro store error obeys missed
      rw [obeys.chunk] at missed
      exact Regime.raised_entryPoint good missed
    · intro store obeys
      refine Attempt.ends_ok rfl ⟨trivial, obeys.chunk, obeys.tables, obeys.cells, fun other => ?_⟩
      by_cases created : other = store.coroutines.size
      · subst created
        simp only [Store.processor, Store.coroutine, Array.getElem?_push_size, Option.getD_some]
        exact Processor.obeys_idle _ _ fun entry same => Option.some.inj same ▸ good
      · simp only [Store.processor, Store.coroutine, Array.getElem?_push, created, if_false]
        exact obeys.processors other
  next => exact upholds_fails (fun _ => ScriptError.noConfusion)

/-- Looking for a coroutine on top of the stack takes one value away and brings none. -/
theorem upholds_popCoroutine (action : String) :
    Upholds regime (fun _ => True) (popCoroutine id action) := by
  refine Attempt.upholds_bind (upholds_onProcessor Processor.upholds_pop id) fun value _ => ?_
  split
  · exact Attempt.upholds_pure trivial
  · exact upholds_fails (fun _ => ScriptError.noConfusion)

/-- Values that code has as literals belong to every regime. -/
theorem upholds_constant (constant : Constant) :
    Processor.Upholds regime (fun _ => True) (Processor.push constant.value) := by
  refine Processor.upholds_push ?_
  cases constant <;> exact Regime.carried_plain rfl (fun _ => Value.noConfusion)

/-! ### Instructions -/

section

variable {instruction : Instruction} {next : Nat} {attempt : Attempt Processor α}

/-- Work on the processor after which the code goes on. -/
theorem upholds_onward (upholds : Processor.Upholds regime shape attempt) :
    Upholds regime (Flow.Obeys regime instruction next)
      (do let _ ← onProcessor id attempt; return .goto next) :=
  Attempt.upholds_bind (upholds_onProcessor upholds id) fun _ _ => Attempt.upholds_pure .onward

/-- An operator brings a constant or an error that names no function: closures and tuples do not
come of operators. -/
theorem upholds_operator {operator : Operator} (works : instruction.operator? = some operator) :
    Upholds regime (Flow.Obeys regime instruction next) (execute id instruction next) := by
  have combines : Processor.Upholds regime (fun _ => True) (Processor.combine operator) := by
    refine Attempt.upholds_bind Processor.upholds_popOperands fun operands _ => ?_
    split
    next constant _ => exact upholds_constant constant
    next => exact Processor.upholds_fails (fun _ => ScriptError.noConfusion)
  rw [execute_of_operator works]
  exact upholds_onward combines

/-- A call instruction has its arguments spread before they lie on the stack again, and it enters
the closure that its callee stands for, which was on the stack and is admitted. -/
theorem upholds_call (count : Nat) (follows : regime.chunk.Follows Instruction.isCall next) :
    Upholds regime (Flow.Obeys regime (.call count) next) (call id count next) := by
  refine Attempt.upholds_bind (upholds_onProcessor (Processor.upholds_popMany count) id)
    fun arguments given => ?_
  have spread := Regime.carried_spread given
  refine Attempt.upholds_bind (upholds_onProcessor Processor.upholds_pop id)
    fun callee carried => ?_
  split
  next closure isClosure =>
    have good := carried.allowed.closure isClosure
    have finds : Upholds regime (fun entryPoint => regime.chunk.entryPoint closure = .ok entryPoint)
        (Attempt.check fun store : Store => store.chunk.entryPoint closure) :=
      Attempt.upholds_check (fun _ _ obeys found => obeys.chunk ▸ found)
        fun _ _ obeys missed => Regime.raised_entryPoint good (obeys.chunk ▸ missed)
    refine Attempt.upholds_bind finds fun entryPoint found => ?_
    have opens : Processor.Upholds regime (fun _ => True) (do
        Processor.push (.closure closure)
        Processor.pushArguments (Value.spread arguments)
        Processor.pushFrame closure entryPoint (.instruction next)) := by
      refine Attempt.upholds_bind (Processor.upholds_push (Regime.carried_closure good)) fun _ _ =>
        Attempt.upholds_bind (Processor.upholds_pushArguments fun argument member =>
          (spread argument member).allowed) fun _ _ => Processor.upholds_pushFrame good found ?_
      intro pointer same
      cases same
      exact follows
    exact Attempt.upholds_bind (upholds_onProcessor opens id) fun _ _ =>
      Attempt.upholds_pure (.enters (Chunk.enters_of_entryPoint found))
  next => exact Attempt.upholds_pure (.callsHost rfl spread)
  next => exact upholds_fails (fun _ => ScriptError.noConfusion)

/-- A return hands its result to the host or pushes it, and goes on where the frame says, which is
behind a call. -/
theorem upholds_leaveFrame (count : Nat) :
    Upholds regime (Flow.Obeys regime (.ret count) next) (leaveFrame id count) := by
  refine upholds_onProcessor (Attempt.upholds_bind (Processor.upholds_popResult count)
    fun value carried => Attempt.upholds_bind Processor.upholds_popFrame fun frame entered => ?_) id
  split
  next => exact Attempt.upholds_pure (.returned carried)
  next pointer returns =>
    exact Attempt.upholds_bind (Processor.upholds_push carried) fun _ _ =>
      Attempt.upholds_pure (.returns rfl (entered.returns pointer returns))

/-- A yield hands its values on as one, and what is to be gone on with lies behind it. -/
theorem upholds_yield (count : Nat) :
    Upholds regime (Flow.Obeys regime (.yield count) next) (execute id (.yield count) next) := by
  refine Attempt.upholds_bind_read fun mayYield => ?_
  split
  · exact Attempt.upholds_bind (upholds_onProcessor (Processor.upholds_popResult count) id)
      fun value carried => Attempt.upholds_pure (.yielded rfl carried)
  · exact upholds_fails (fun _ => ScriptError.noConfusion)

/-- Whatever copies no arguments and makes no closure upholds every regime. One case for each
instruction: what it pushes is a constant or comes from the stack, a table, a cell or a list of
arguments, and each of these places holds values that may lie on a stack. -/
theorem upholds_execute (instruction : Instruction)
    (follows : ∀ count, instruction = .call count → regime.chunk.Follows Instruction.isCall next)
    (copies : instruction ≠ .arguments)
    (makes : ∀ function captures, instruction ≠ .makeClosure function captures) :
    Upholds regime (Flow.Obeys regime instruction next) (execute id instruction next) := by
  have goes : Upholds regime (Flow.Obeys regime instruction next)
      (pure (.goto next) : Attempt Store Flow) := Attempt.upholds_pure .onward
  cases instruction with
  | nop => exact goes
  | literal constant => exact upholds_onward (upholds_constant constant)
  | pop => exact upholds_onward Processor.upholds_pop
  | arguments => exact absurd rfl copies
  | loadLocal index =>
    exact upholds_onward (Attempt.upholds_bind (Processor.upholds_loadLocal index) fun _ carried =>
      Processor.upholds_push carried)
  | storeLocal index =>
    exact upholds_onward (Attempt.upholds_bind Processor.upholds_pop fun value carried =>
      Processor.upholds_storeLocal index (carried.allowed.collapse.carried value.isTuple_collapse))
  | loadUpvalue index =>
    exact Attempt.upholds_bind (upholds_onProcessor (Processor.upholds_upvalueCell index) id)
      fun cell _ => Attempt.upholds_bind (Attempt.upholds_read fun _ obeys => obeys.readCell cell)
        fun _ carried => upholds_onward (Processor.upholds_push carried)
  | storeUpvalue index =>
    exact Attempt.upholds_bind (upholds_onProcessor Processor.upholds_pop id) fun value carried =>
      Attempt.upholds_bind (upholds_onProcessor (Processor.upholds_upvalueCell index) id)
        fun cell _ => Attempt.upholds_bind
          (Attempt.upholds_modify fun _ obeys => obeys.writeCell cell carried.allowed.kept_collapse)
          fun _ _ => goes
  | loadGlobal name =>
    exact Attempt.upholds_bind (Attempt.upholds_read fun _ obeys => obeys.getGlobal name)
      fun _ carried => upholds_onward (Processor.upholds_push carried)
  | storeGlobal name =>
    exact Attempt.upholds_bind (upholds_onProcessor Processor.upholds_pop id) fun value carried =>
      Attempt.upholds_bind
        (Attempt.upholds_modify fun _ obeys => obeys.setTable globals name carried.allowed)
        fun _ _ => goes
  | makeClosure function captures => exact absurd rfl (makes function captures)
  | call count => exact upholds_call count (follows count rfl)
  | ret count => exact upholds_leaveFrame count
  | yield count => exact upholds_yield count
  | tuple count =>
    exact upholds_onward (Attempt.upholds_bind (Processor.upholds_popMany count) fun _ given =>
      Processor.upholds_push (Regime.carried_tuple (Regime.allows_spread given)
        fun _ => Value.isTuple_of_mem_spread))
  | jump target => exact Attempt.upholds_pure (.jumps rfl)
  | jumpIfFalse target =>
    refine Attempt.upholds_bind (upholds_onProcessor Processor.upholds_pop id) fun value _ =>
      Attempt.upholds_pure ?_
    split
    · exact .onward
    · exact .jumps rfl
  | add | subtract | less | equal | concat => exact upholds_operator rfl
  | not =>
    exact upholds_onward (Attempt.upholds_bind Processor.upholds_pop fun _ _ =>
      upholds_constant (.boolean _))
  | raise =>
    exact Attempt.upholds_bind (upholds_onProcessor Processor.upholds_pop id) fun _ _ =>
      upholds_fails (fun _ => ScriptError.noConfusion)
  | createCoroutine =>
    exact Attempt.upholds_bind (upholds_onProcessor Processor.upholds_pop id) fun value carried =>
      Attempt.upholds_bind (upholds_spawn id carried.allowed.collapse) fun _ _ =>
        upholds_onward (Processor.upholds_push
          (Regime.carried_plain rfl (fun _ => Value.noConfusion)))
  | resumeCoroutine count =>
    exact Attempt.upholds_bind (upholds_onProcessor (Processor.upholds_popMany count) id)
      fun _ given => Attempt.upholds_bind (upholds_popCoroutine _) fun _ _ =>
        Attempt.upholds_pure (.resumes rfl (Regime.carried_spread given))
  | coroutineStatus =>
    exact Attempt.upholds_bind (upholds_popCoroutine _) fun _ _ =>
      Attempt.upholds_bind_read fun _ => upholds_onward (upholds_constant (.string _))
  | currentCoroutine =>
    exact upholds_onward (Processor.upholds_push
      (Regime.carried_plain rfl (fun _ => Value.noConfusion)))

/-- What an instruction comes to in a store that obeys: where the closure that it makes is one that
there may be, and the arguments that it copies are no tuples if the regime cares. -/
theorem Obeys.execute (obeys : store.Obeys regime) {pointer : Nat}
    (fetched : store.chunk.instruction? pointer = some instruction)
    (clear : regime.flat → ∀ frame, (store.processor id).frames.top? = some frame →
      (store.processor id).Clear frame)
    (made : ∀ function captures cells after, instruction = .makeClosure function captures →
      Attempt.mapEach (capture id) captures store = (.ok cells, after) →
        regime.closure ⟨function, ⟨after.nextScope, cells⟩⟩) :
    (execute id instruction (pointer + 1)).Ends store
      (fun flow after => flow.Obeys regime instruction (pointer + 1) ∧ after.Obeys regime)
      (fun error after => regime.raised error ∧ after.Obeys regime) := by
  by_cases copies : instruction = .arguments
  · subst copies
    refine Attempt.ends_bind_read ?_
    rw [obeys.chunk]
    exact Attempt.ends_bind
      (obeys_onProcessor obeys (Processor.copyArguments_obeys (obeys.processors id) clear))
      fun _ _ kept => Attempt.ends_pure ⟨.onward, kept.2⟩
  by_cases makes : ∃ function captures, instruction = .makeClosure function captures
  · obtain ⟨function, captures, rfl⟩ := makes
    have captured : Upholds regime (fun _ => True) (Attempt.mapEach (capture id) captures) :=
      Attempt.upholds_mapEach upholds_capture captures
    refine Attempt.ends_bind ((captured store obeys).reached.mono (fun _ _ reached => reached)
      fun _ _ failed => failed.2) ?_
    rintro cells middle ⟨reached, _, kept⟩
    have good := made function captures cells middle rfl reached
    refine Attempt.ends_bind_ok rfl ?_
    exact upholds_onward (Processor.upholds_push (Regime.carried_closure good)) _
      (kept.congr rfl rfl rfl rfl)
  · refine upholds_execute instruction ?_ copies (fun function captures same =>
      makes ⟨function, captures, same⟩) store obeys
    rintro count rfl
    exact ⟨pointer, .call count, obeys.chunk ▸ fetched, rfl, rfl⟩

end

end Store

end CoroutineVM
