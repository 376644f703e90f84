import CoroutineVM.Proofs.Processor.Underlay
import CoroutineVM.Proofs.Store.Instructions

/-!
# Instructions over another bottom

`Store.rebase` puts something else at the bottom of the stacks of one coroutine. Nothing but those
two stacks shows the difference: no other coroutine, no handle, no table and no cell. An instruction
does the same after it as before, and ends in the same way, as long as the frame that it runs in
stands above that bottom.
-/

namespace CoroutineVM

namespace Store

open Processor Attempt

variable {α β : Type} {id on : CoroutineId} {underlay : Underlay} {store : Store}

/-- The store with this at the bottom of the stacks of one coroutine. -/
def rebase (id : CoroutineId) (underlay : Underlay) : Store → Store :=
  modifyProcessor id (Processor.rebase underlay)

/-! ### What can be told apart -/

/-- A processor that is changed reads as changed. -/
theorem processor_modifyProcessor (known : store.Has id) (change : Processor → Processor) :
    (store.modifyProcessor id change).processor id = change (store.processor id) := by
  rw [processor, modifyProcessor, coroutine_modifyCoroutine known, processor]

/-- Another bottom makes no coroutine. -/
@[simp]
theorem has_rebase (other : CoroutineId) :
    (store.rebase id underlay).Has other ↔ store.Has other := has_modifyCoroutine ..

/-- The coroutine that it is put under has it at the bottom of its stacks. -/
theorem processor_rebase (known : store.Has id) :
    (store.rebase id underlay).processor id = (store.processor id).rebase underlay :=
  processor_modifyProcessor known _

/-- All others have the stacks that they had. -/
theorem processor_rebase_other (different : on ≠ id) :
    (store.rebase id underlay).processor on = store.processor on := by
  rw [processor, rebase, modifyProcessor, coroutine_modifyCoroutine_other different, processor]

/-- What the stacks do not tell reads the same of every coroutine. The lemmas that follow are
instances for the parts of a coroutine that resumes and guards look at. -/
theorem read_rebase (read : Coroutine → α)
    (kept : ∀ coroutine, read { coroutine with processor := coroutine.processor.rebase underlay } =
      read coroutine) (other : CoroutineId) :
    read ((store.rebase id underlay).coroutine other) = read (store.coroutine other) :=
  read_modifyCoroutine read kept store id other

/-- The status of no coroutine shows what is at the bottom. -/
@[simp]
theorem status_rebase (other : CoroutineId) :
    (store.rebase id underlay).status other = store.status other :=
  read_rebase Coroutine.status (fun _ => rfl) other

/-- Nor does who uses it. -/
@[simp]
theorem access_rebase (other : CoroutineId) :
    (store.rebase id underlay).access other = store.access other :=
  read_rebase Coroutine.access (fun _ => rfl) other

/-- Nor does its guard. -/
@[simp]
theorem guard_rebase (other : CoroutineId) :
    ((store.rebase id underlay).processor other).guard = (store.processor other).guard :=
  read_rebase (·.processor.guard) (fun _ => rfl) other

/-- Nor does its permission to yield. -/
@[simp]
theorem mayYield_rebase (other : CoroutineId) :
    ((store.rebase id underlay).processor other).mayYield = (store.processor other).mayYield :=
  read_rebase (·.processor.mayYield) (fun _ => rfl) other

/-- A change of a coroutine that goes past the bottom of its stacks can be made before or after the
bottom is exchanged. Of other coroutines nothing has to be known. -/
theorem rebase_modifyCoroutine (change : Coroutine → Coroutine)
    (past : on = id →
      change { store.coroutine id with processor := (store.processor id).rebase underlay } =
        { change (store.coroutine id) with
          processor := (change (store.coroutine id)).processor.rebase underlay }) :
    (store.modifyCoroutine on change).rebase id underlay =
      (store.rebase id underlay).modifyCoroutine on change := by
  by_cases same : on = id
  · subst same
    simp only [rebase, modifyProcessor, modifyCoroutine_twice]
    exact modifyCoroutine_congr_at (past rfl).symm
  · exact modifyCoroutine_comm (Ne.symm same) _ _

/-- An attempt on a processor commutes with another bottom if it does so on that processor. If it is
the processor of someone else, the exchange does not meet it at all. -/
theorem commutes_onProcessor {attempt : Attempt Processor α} (known : store.Has id)
    (commutes : on = id → Commutes (Processor.rebase underlay) attempt (store.processor id)) :
    Commutes (rebase id underlay) (onProcessor on attempt) store := by
  rw [Commutes, onProcessor_eq, onProcessor_eq]
  by_cases same : on = id
  · subst same
    have here := commutes rfl
    rw [Commutes] at here
    rw [processor_rebase known, here, Prod.mk.injEq]
    refine ⟨rfl, ?_⟩
    simp only [rebase, modifyProcessor, modifyCoroutine_twice]
  · rw [processor_rebase_other same, Prod.mk.injEq]
    exact ⟨rfl, (rebase_modifyCoroutine _ fun isId => absurd isId same).symm⟩

/-! ### Instructions -/

/-- An instruction on a coroutine may start here: there are both coroutines, and if they are the
same one then its code runs above the bottom. -/
structure Grounded (id : CoroutineId) (underlay : Underlay) (on : CoroutineId) (store : Store) :
    Prop where
  known : store.Has id
  own : store.Has on
  above : on = id → Above underlay (store.processor id)

/-- Work in the window leaves the code where it can go on. -/
theorem Grounded.touches {before after : Store} (grounded : Grounded id underlay on before)
    (touches : Touches on Keeps before after) : Grounded id underlay on after := by
  refine ⟨touches.has grounded.known, touches.has grounded.own, ?_⟩
  rintro rfl
  exact (grounded.above rfl).keeps touches.processor

/-- What the attempt does and comes to is the same whatever lies at the bottom, and code can go on
after it. -/
def Impartial (id : CoroutineId) (underlay : Underlay) (on : CoroutineId)
    (attempt : Attempt Store α) : Prop :=
  ∀ store, Grounded id underlay on store →
    Commutes (rebase id underlay) attempt store ∧ Grounded id underlay on (attempt store).2

/-- Doing nothing, failing, reading and checking are impartial, as long as what is looked at does
not show the stacks. -/
theorem impartial_pure (result : α) :
    Impartial id underlay on (pure result : Attempt Store α) :=
  fun _ grounded => ⟨commutes_pure result, grounded⟩

/-- An error does not depend on what lies below. -/
theorem impartial_fail (error : ScriptError) :
    Impartial id underlay on (Attempt.fail error : Attempt Store α) :=
  fun _ grounded => ⟨commutes_fail error, grounded⟩

/-- What is read must not be the stacks of the coroutine whose bottom is exchanged. -/
theorem impartial_read {look : Store → α}
    (same : ∀ store, look (rebase id underlay store) = look store) :
    Impartial id underlay on (Attempt.read look) :=
  fun store grounded => ⟨commutes_read (same store), grounded⟩

/-- The same of what is checked. -/
theorem impartial_check {look : Store → Except ScriptError α}
    (same : ∀ store, look (rebase id underlay store) = look store) :
    Impartial id underlay on (Attempt.check look) :=
  fun store grounded => ⟨commutes_check (same store), grounded⟩

/-- After an impartial part it is enough that the rest commutes. Calls and returns are no longer
grounded when they end, so that they are composed in this way. -/
theorem commutes_after {first : Attempt Store β} {second : β → Attempt Store α}
    (left : Impartial id underlay on first) (grounded : Grounded id underlay on store)
    (right : ∀ result next, Grounded id underlay on next →
      Commutes (rebase id underlay) (second result) next) :
    Commutes (rebase id underlay) (first >>= second) store := by
  obtain ⟨commutes, kept⟩ := left store grounded
  refine commutes_bind commutes fun result next reached => right result next ?_
  rw [reached] at kept
  exact kept

/-- Parts that do not mind the bottom make up a whole that does not. The second part begins in the
store that the first one has left, which is the same one but for the bottom. -/
theorem impartial_bind {first : Attempt Store β} {second : β → Attempt Store α}
    (left : Impartial id underlay on first)
    (right : ∀ result, Impartial id underlay on (second result)) :
    Impartial id underlay on (first >>= second) := by
  intro store grounded
  refine ⟨commutes_after left grounded fun result next kept => (right result next kept).1, ?_⟩
  obtain ⟨_, kept⟩ := left store grounded
  change Grounded id underlay on (andThen first second store).2
  cases reached : first store with
  | mk outcome middle =>
    rw [reached] at kept
    cases outcome with
    | ok result =>
      simp only [andThen, reached]
      exact (right result middle kept).2
    | error error =>
      simp only [andThen, reached]
      exact kept

/-- Work in the window of the processor that the code runs on, whichever this is. -/
theorem impartial_onProcessor {attempt : Attempt Processor α}
    (indifferent : Indifferent underlay attempt) :
    Impartial id underlay on (onProcessor on attempt) := by
  intro store grounded
  refine ⟨commutes_onProcessor grounded.known fun same =>
    indifferent.commutes _ (grounded.above same), ?_⟩
  cases reached : onProcessor on attempt store with
  | mk outcome after =>
    obtain ⟨result, rfl, _, touches⟩ | ⟨error, rfl, touches, _⟩ :=
      (inside_onProcessor indifferent.window store grounded.own).either reached
    · exact grounded.touches touches
    · exact grounded.touches touches

/-- Whatever does not concern the coroutines: making cells, scopes and tables, and writing to
them. -/
theorem impartial_apart {attempt : Attempt Store α}
    (apart : ∀ store : Store, Commutes (rebase id underlay) attempt store ∧
      Lasts store (attempt store).2 ∧ (attempt store).2.coroutines = store.coroutines ∧
      (attempt store).2.counters = store.counters) :
    Impartial id underlay on attempt := by
  intro store grounded
  obtain ⟨commutes, lasts, same, counters⟩ := apart store
  exact ⟨commutes, grounded.touches (touches_same lasts same counters (Keeps.refl _))⟩

/-- A new coroutine has empty stacks, and its place is the same with the other bottom. The coroutine
with the bottom is there already, so that it is not the new one. -/
theorem commutes_spawn (known : store.Has id) (parent : CoroutineId) (function : Value) :
    Commutes (rebase id underlay) (spawn parent function) store := by
  have pushed : ∀ coroutine, (store.coroutines.push coroutine).modify id (fun coroutine =>
      { coroutine with processor := coroutine.processor.rebase underlay }) =
      (store.coroutines.modify id fun coroutine =>
        { coroutine with processor := coroutine.processor.rebase underlay }).push coroutine := by
    intro coroutine
    have inside : id < store.coroutines.size := known
    apply Array.ext_getElem?
    intro index
    by_cases isLast : index = store.coroutines.size
    · subst isLast
      rw [Array.getElem?_modify, if_neg (Nat.ne_of_lt inside), Array.getElem?_push, if_pos rfl,
        Array.getElem?_push, if_pos Array.size_modify.symm]
    · simp [Array.getElem?_modify, Array.getElem?_push, isLast]
  unfold spawn
  split
  next closure =>
    refine commutes_bind (commutes_check rfl) ?_
    intro entryPoint next reached
    obtain rfl : store = next := congrArg Prod.snd reached
    simp [Commutes, rebase, modifyProcessor, modifyCoroutine, pushed]
  next => exact commutes_fail _

/-- Creating a coroutine leaves the code of its creator where it is. -/
theorem impartial_spawn (function : Value) : Impartial id underlay on (spawn on function) := by
  intro store grounded
  refine ⟨commutes_spawn grounded.known on function, ?_⟩
  cases reached : spawn on function store with
  | mk outcome after =>
    obtain ⟨result, rfl, _, touches⟩ | ⟨error, rfl, touches, _⟩ :=
      (inside_spawn function store grounded.own).either reached
    · exact grounded.touches touches
    · exact grounded.touches touches

/-- By induction on the items, as for the captures of a closure. -/
theorem impartial_mapEach {attempt : β → Attempt Store α}
    (each : ∀ item, Impartial id underlay on (attempt item)) (items : List β) :
    Impartial id underlay on (Attempt.mapEach attempt items) := by
  induction items with
  | nil => exact impartial_pure []
  | cons item rest inductionHypothesis =>
    exact impartial_bind (each item) fun _ => impartial_bind inductionHypothesis fun _ =>
      impartial_pure _

/-- The local lies in the window, and the captured variable in no stack. -/
theorem impartial_capture (capture : Capture) :
    Impartial id underlay on (Store.capture on capture) := by
  cases capture with
  | copyLocal index =>
    exact impartial_bind (impartial_onProcessor (indifferent_loadLocal index)) fun _ =>
      impartial_apart fun _ => ⟨rfl, ⟨rfl, rfl, rfl, Nat.le_refl _⟩, rfl, rfl⟩
  | shareUpvalue index => exact impartial_onProcessor (indifferent_upvalueCell index)

/-- Work in the window after which the code goes on. -/
theorem impartial_goto {attempt : Attempt Processor α} (indifferent : Indifferent underlay attempt)
    (next : α → Nat) :
    Impartial id underlay on (do return Flow.goto (next (← onProcessor on attempt))) :=
  impartial_bind (impartial_onProcessor indifferent) fun _ => impartial_pure _

/-- The operand lies in the window. -/
theorem impartial_popCoroutine (action : String) :
    Impartial id underlay on (popCoroutine on action) := by
  refine impartial_bind (impartial_onProcessor indifferent_pop) fun value => ?_
  split
  · exact impartial_pure _
  · exact impartial_fail _

/-- So do the operands of an operator and its result. -/
theorem impartial_operator {instruction : Instruction} {operator : Operator}
    (works : instruction.operator? = some operator) (next : Nat) :
    Impartial id underlay on (execute on instruction next) := by
  rw [execute_of_operator works]
  refine impartial_goto (indifferent_bind indifferent_popOperands fun operands => ?_) _
  split
  · exact indifferent_push _
  · exact indifferent_fail rfl

/-- Everything but a call and a return stays in its frame, and then it is enough to know of each
operation that it does the same on a processor over another bottom. -/
theorem impartial_execute (instruction : Instruction) (next : Nat)
    (plain : ∀ count, instruction ≠ .call count ∧ instruction ≠ .ret count) :
    Impartial id underlay on (execute on instruction next) := by
  cases instruction with
  | nop => exact impartial_pure _
  | literal constant => exact impartial_goto (indifferent_push _) _
  | pop => exact impartial_goto indifferent_pop _
  | arguments =>
    exact impartial_bind (impartial_read fun _ => rfl) fun chunk =>
      impartial_goto (indifferent_copyArguments chunk) _
  | loadLocal index =>
    exact impartial_goto (indifferent_bind (indifferent_loadLocal index) fun _ =>
      indifferent_push _) _
  | storeLocal index =>
    exact impartial_goto
      (indifferent_bind indifferent_pop fun _ => indifferent_storeLocal index _) _
  | loadUpvalue index =>
    exact impartial_bind (impartial_onProcessor (indifferent_upvalueCell index)) fun _ =>
      impartial_bind (impartial_read fun _ => rfl) fun _ => impartial_goto (indifferent_push _) _
  | storeUpvalue index =>
    exact impartial_bind (impartial_onProcessor indifferent_pop) fun _ =>
      impartial_bind (impartial_onProcessor (indifferent_upvalueCell index)) fun _ =>
        impartial_bind (impartial_apart fun _ => ⟨rfl, ⟨rfl, rfl, rfl, Nat.le_refl _⟩, rfl, rfl⟩)
          fun _ => impartial_pure _
  | loadGlobal name =>
    exact impartial_bind (impartial_read fun _ => rfl) fun _ =>
      impartial_goto (indifferent_push _) _
  | storeGlobal name =>
    exact impartial_bind (impartial_onProcessor indifferent_pop) fun _ =>
      impartial_bind (impartial_apart fun _ => ⟨rfl, ⟨rfl, rfl, rfl, Nat.le_refl _⟩, rfl, rfl⟩)
        fun _ => impartial_pure _
  | makeClosure function captures =>
    exact impartial_bind (impartial_mapEach impartial_capture captures) fun _ =>
      impartial_bind (impartial_apart fun _ => ⟨rfl, ⟨rfl, rfl, rfl, Nat.le_refl _⟩, rfl, rfl⟩)
        fun _ => impartial_goto (indifferent_push _) _
  | call count => exact absurd rfl (plain count).1
  | ret count => exact absurd rfl (plain count).2
  | yield count =>
    refine impartial_bind (impartial_read fun store => mayYield_rebase on) fun mayYield => ?_
    split
    · exact impartial_bind (impartial_onProcessor (indifferent_popResult count)) fun _ =>
        impartial_pure _
    · exact impartial_fail _
  | tuple count =>
    exact impartial_goto (indifferent_bind (indifferent_popMany count) fun _ =>
      indifferent_push _) _
  | jump target => exact impartial_pure _
  | jumpIfFalse target => exact impartial_goto indifferent_pop _
  | add | subtract | less | equal | concat => exact impartial_operator rfl next
  | not => exact impartial_goto (indifferent_bind indifferent_pop fun _ => indifferent_push _) _
  | raise =>
    exact impartial_bind (impartial_onProcessor indifferent_pop) fun _ => impartial_fail _
  | createCoroutine =>
    exact impartial_bind (impartial_onProcessor indifferent_pop) fun _ =>
      impartial_bind (impartial_spawn _) fun _ => impartial_goto (indifferent_push _) _
  | resumeCoroutine count =>
    exact impartial_bind (impartial_onProcessor (indifferent_popMany count)) fun _ =>
      impartial_bind (impartial_popCoroutine _) fun _ => impartial_pure _
  | coroutineStatus =>
    exact impartial_bind (impartial_popCoroutine _) fun target =>
      impartial_bind (impartial_read fun store => status_rebase target) fun _ =>
        impartial_goto (indifferent_push _) _
  | currentCoroutine => exact impartial_goto (indifferent_push _) _

/-- A call takes its operands out of the window and opens the frame on top of what is left, which is
not below the bottom. -/
theorem commutes_call (grounded : Grounded id underlay on store) (count next : Nat) :
    Commutes (rebase id underlay) (call on count next) store := by
  refine commutes_after (impartial_onProcessor (indifferent_popMany count)) grounded ?_
  intro arguments popped grounded
  refine commutes_after (impartial_onProcessor indifferent_pop) grounded ?_
  intro callee below grounded
  split
  next closure _ =>
    refine commutes_after (impartial_check fun _ => rfl) grounded ?_
    intro entryPoint ready grounded
    exact commutes_bind (commutes_onProcessor grounded.known fun same =>
      commutes_openClosure closure _ entryPoint _ (grounded.above same).upon) fun _ _ _ =>
        commutes_pure _
  next => exact commutes_pure _
  next => exact commutes_fail _

/-- A return drops its frame, whose callee lies above the bottom, so that the result is pushed there
as well. -/
theorem commutes_leaveFrame (grounded : Grounded id underlay on store) (count : Nat) :
    Commutes (rebase id underlay) (leaveFrame on count) store := by
  refine commutes_onProcessor grounded.known fun same => ?_
  have above := grounded.above same
  refine commutes_bind ((indifferent_popResult count).commutes _ above) ?_
  intro value middle popped
  have still := above.keeps ((inWindow_popResult count _).of_ok popped)
  refine commutes_bind (commutes_popFrame still) ?_
  intro frame below dropped
  split
  · exact commutes_pure _
  · exact commutes_bind (commutes_push value (still.popped dropped)) fun _ _ _ => commutes_pure _

/-- What an instruction does and how it ends is the same whatever lies at the bottom. The code runs
in a frame above it; what happens after its return is not said here. -/
theorem commutes_execute (grounded : Grounded id underlay on store) (instruction : Instruction)
    (next : Nat) : Commutes (rebase id underlay) (execute on instruction next) store := by
  cases instruction
  case call count => exact commutes_call grounded count next
  case ret count => exact commutes_leaveFrame grounded count
  all_goals exact (impartial_execute _ next (by simp) store grounded).1

end Store

end CoroutineVM
