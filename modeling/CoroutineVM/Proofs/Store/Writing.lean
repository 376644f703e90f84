import CoroutineVM.Machine.Entry
import CoroutineVM.Proofs.Attempt
import CoroutineVM.Proofs.Store.View

/-!
# What is written besides stacks

Processors share tables, cells and scopes. One instruction writes to a table and one to a cell that
is already there. All the others, and all ways into code, at most add cells and scopes. A relation
between a store and what becomes of it that does not mind this is `Lenient`. It holds whatever is
carried out, as long as it holds of these two instructions, and the walk through everything else is
made here once for all such relations.
-/

namespace CoroutineVM

/-- Whether tables change or a cell that is already there. -/
def Edit.writes : Edit → Bool
  | .createTable | .setEntry _ _ _ | .writeCell _ _ => true
  | _ => false

namespace Store

open Attempt

variable {relation : Store → Store → Prop} {id : CoroutineId}

/-- A relation between stores that minds nothing but what is in the tables and in the cells of the
first one. -/
structure Lenient (relation : Store → Store → Prop) : Prop where
  same : ∀ {before after : Store}, after.tables = before.tables → after.cells = before.cells →
    after.nextScope = before.nextScope → relation before after
  trans : ∀ {first second third : Store}, relation first second → relation second third →
    relation first third
  createCell : ∀ value store, relation store (createCell value store).2
  createScope : ∀ store, relation store { store with nextScope := store.nextScope + 1 }

/-- An attempt on a processor is one on stacks only. -/
theorem shared_onProcessor {α : Type} (id : CoroutineId) (attempt : Attempt Processor α)
    (store : Store) :
    (onProcessor id attempt store).2.tables = store.tables ∧
      (onProcessor id attempt store).2.cells = store.cells ∧
      (onProcessor id attempt store).2.nextScope = store.nextScope := by
  rw [onProcessor_eq]
  exact ⟨rfl, rfl, rfl⟩

/-- A store to which nothing has happened is one in which tables, cells and scopes are the same. -/
theorem Lenient.refl (lenient : Lenient relation) (store : Store) : relation store store :=
  lenient.same rfl rfl rfl

/-- An attempt relates every store to what it leaves of it, also when it fails. -/
def Respects {α : Type} (relation : Store → Store → Prop) (attempt : Attempt Store α) : Prop :=
  ∀ store, relation store (attempt store).2

section

variable {α β : Type} (lenient : Lenient relation)
include lenient

/-- An attempt that leaves the store as it is. -/
theorem respects_same {attempt : Attempt Store α} (same : ∀ store, (attempt store).2 = store) :
    Respects relation attempt := fun store => (same store).symm ▸ lenient.refl store

/-- Attempts one after the other are related by transitivity, also when the first one fails. -/
theorem respects_bind {first : Attempt Store β} {second : β → Attempt Store α}
    (before : Respects relation first) (after : ∀ result, Respects relation (second result)) :
    Respects relation (first >>= second) := by
  intro store
  have reached := before store
  change relation store (andThen first second store).2
  rw [andThen]
  split <;> rename_i run <;> rw [run] at reached
  · exact lenient.trans reached (after _ _)
  · exact reached

/-- By induction on the items. -/
theorem respects_mapEach {attempt : β → Attempt Store α}
    (each : ∀ item, Respects relation (attempt item)) (items : List β) :
    Respects relation (mapEach attempt items) := by
  induction items with
  | nil => exact respects_same lenient fun _ => rfl
  | cons item rest inductionHypothesis =>
    exact respects_bind lenient (each item) fun _ =>
      respects_bind lenient inductionHypothesis fun _ =>
      respects_same lenient fun _ => rfl

/-- Work on stacks is not noticed. -/
theorem respects_onProcessor (attempt : Attempt Processor α) :
    Respects relation (onProcessor id attempt) := by
  intro store
  obtain ⟨tables, cells, scopes⟩ := shared_onProcessor id attempt store
  exact lenient.same tables cells scopes

/-! ### Instructions -/

/-- A captured local gets a new cell, which a lenient relation does not mind. -/
theorem respects_capture (capture : Capture) : Respects relation (Store.capture id capture) := by
  cases capture with
  | copyLocal index =>
    exact respects_bind lenient (respects_onProcessor lenient _) fun value =>
      lenient.createCell value.collapse
  | shareUpvalue index => exact respects_onProcessor lenient _

/-- A coroutine is neither a table nor a cell. -/
theorem respects_spawn (parent : CoroutineId) (function : Value) :
    Respects relation (spawn parent function) := by
  unfold spawn
  split
  · exact respects_bind lenient (respects_same lenient fun _ => rfl) fun _ _ =>
      lenient.same rfl rfl rfl
  · exact respects_same lenient fun _ => rfl

/-- The operand is popped and looked at. -/
theorem respects_popCoroutine (action : String) : Respects relation (popCoroutine id action) := by
  refine respects_bind lenient (respects_onProcessor lenient _) fun value => ?_
  split <;> exact respects_same lenient fun _ => rfl

/-- A call works on stacks and leaves the rest to the host or to code. -/
theorem respects_call (count next : Nat) : Respects relation (call id count next) := by
  refine respects_bind lenient (respects_onProcessor lenient _) fun arguments =>
    respects_bind lenient (respects_onProcessor lenient _) fun callee => ?_
  split
  · exact respects_bind lenient (respects_same lenient fun _ => rfl) fun _ =>
      respects_bind lenient (respects_onProcessor lenient _) fun _ =>
        respects_same lenient fun _ => rfl
  · exact respects_same lenient fun _ => rfl
  · exact respects_same lenient fun _ => rfl

/-- So does a yield, or it is refused. -/
theorem respects_yield (count next : Nat) : Respects relation (execute id (.yield count) next) := by
  refine respects_bind lenient (respects_same lenient fun _ => rfl) fun mayYield => ?_
  split
  · exact respects_bind lenient (respects_onProcessor lenient _) fun _ =>
      respects_same lenient fun _ => rfl
  · exact respects_same lenient fun _ => rfl

/-- An instruction respects a lenient relation if the two that write do. Everything else is walked
through here once. -/
theorem respects_execute (instruction : Instruction) (next : Nat)
    (global : ∀ name, instruction = .storeGlobal name → ∀ value store,
      relation store (store.setGlobal name value))
    (upvalue : ∀ index, instruction = .storeUpvalue index → ∀ cell value store,
      relation store (store.writeCell cell value)) :
    Respects relation (execute id instruction next) := by
  have still : ∀ {α : Type} {attempt : Attempt Store α}, (∀ store, (attempt store).2 = store) →
      Respects relation attempt := respects_same lenient
  have onward : ∀ {α : Type} (attempt : Attempt Processor α) (flow : α → Flow),
      Respects relation (do let result ← onProcessor id attempt; return flow result) :=
    fun attempt flow => respects_bind lenient (respects_onProcessor lenient attempt) fun _ =>
      still fun _ => rfl
  have after : ∀ {α β : Type} (attempt : Attempt Processor β) {rest : β → Attempt Store α},
      (∀ result, Respects relation (rest result)) →
        Respects relation (onProcessor id attempt >>= rest) :=
    fun attempt => respects_bind lenient (respects_onProcessor lenient attempt)
  -- An instruction is a few attempts on its processor with at most one thing written between them.
  cases instruction with
  | nop => exact still fun _ => rfl
  | arguments => exact respects_bind lenient (still fun _ => rfl) fun _ => onward _ _
  | loadUpvalue index =>
    exact after _ fun _ => respects_bind lenient (still fun _ => rfl) fun _ => onward _ _
  | storeUpvalue index =>
    exact after _ fun value => after _ fun cell =>
      respects_bind lenient (upvalue index rfl cell value.collapse) fun _ => still fun _ => rfl
  | loadGlobal name => exact respects_bind lenient (still fun _ => rfl) fun _ => onward _ _
  | storeGlobal name =>
    exact after _ fun value => respects_bind lenient (global name rfl value) fun _ =>
      still fun _ => rfl
  | makeClosure function captures =>
    exact respects_bind lenient (respects_mapEach lenient (respects_capture lenient) captures)
      fun cells => respects_bind lenient lenient.createScope fun _ => onward _ _
  | call count => exact respects_call lenient count next
  | ret count => exact respects_onProcessor lenient _
  | yield count => exact respects_yield lenient count next
  | jump target => exact still fun _ => rfl
  | raise => exact after _ fun _ => still fun _ => rfl
  | createCoroutine =>
    exact after _ fun _ => respects_bind lenient (respects_spawn lenient _ _) fun _ => onward _ _
  | resumeCoroutine count =>
    exact after _ fun _ => respects_bind lenient (respects_popCoroutine lenient _) fun _ =>
      still fun _ => rfl
  | coroutineStatus =>
    exact respects_bind lenient (respects_popCoroutine lenient _) fun _ =>
      respects_bind lenient (still fun _ => rfl) fun _ => onward _ _
  | _ => exact onward _ _

/-! ### Entries and changes -/

/-- The beginning of a call changes guards, counters and stacks. -/
theorem relates_beginCall (id : CoroutineId) (callee : Option Value) (arguments : List Value)
    (store : Store) : relation store (store.beginCall id callee arguments).store := by
  unfold beginCall
  split
  · exact lenient.refl store
  · exact lenient.same (shared_onProcessor _ _ _).1 (shared_onProcessor _ _ _).2.1
      (shared_onProcessor _ _ _).2.2

/-- So does the beginning of a resume, which also sets a status, whether it is refused or not. -/
theorem relates_beginResume (target : CoroutineId) (arguments : List Value) (store : Store) :
    relation store (store.beginResume target arguments).store := by
  unfold beginResume
  dsimp only
  split
  · exact lenient.refl store
  split
  · exact lenient.refl store
  split
  · exact lenient.refl store
  split
  · exact lenient.refl store
  · exact lenient.same (shared_onProcessor _ _ _).1 (shared_onProcessor _ _ _).2.1
      (shared_onProcessor _ _ _).2.2

/-- A resume by a coroutine is one by a handle with one more status to set. -/
theorem relates_beginChildResume (id target : CoroutineId) (arguments : List Value)
    (store : Store) :
    relation store (store.beginChildResume id target arguments).store := by
  unfold beginChildResume
  split
  · have waits : relation store (store.setStatus id .normal) := lenient.same rfl rfl rfl
    exact lenient.trans waits (relates_beginResume lenient target arguments _)
  · exact relates_beginResume lenient target arguments store

/-- Borrowing the main processor says so in its access and does the rest of the work. -/
theorem relates_borrowing (id : CoroutineId) {begin : Store → Turn}
    (begins : ∀ store : Store, relation store (begin store).store) (store : Store) :
    relation store (borrowing id begin store).store := by
  unfold borrowing
  split
  · exact lenient.refl store
  · have taken : relation store (store.setAccess id .executing) := lenient.same rfl rfl rfl
    exact lenient.trans taken (begins _)

/-- Only the changes that write may matter. So a relation that does not mind coroutines, counters
and guards is asked about those changes only. -/
theorem relates_edit (store : Store) (change : Edit)
    (writing : change.writes = true → relation store (store.edit change)) :
    relation store (store.edit change) := by
  cases change with
  | createTable => exact writing rfl
  | setEntry table name value => exact writing rfl
  | writeCell cell value => exact writing rfl
  | createCell value => exact lenient.createCell value store
  | createScope => exact lenient.createScope store
  | hold id =>
    simp only [edit, hold]
    split <;> exact lenient.same rfl rfl rfl
  | letGo id =>
    simp only [edit, letGo]
    split <;> exact lenient.same rfl rfl rfl
  | enterGuard id thread =>
    simp only [edit, enterGuard]
    split <;> exact lenient.same rfl rfl rfl
  | _ => exact lenient.same rfl rfl rfl

end

end Store

end CoroutineVM
