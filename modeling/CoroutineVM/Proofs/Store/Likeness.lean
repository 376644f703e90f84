import CoroutineVM.Proofs.Processor.Likeness
import CoroutineVM.Proofs.Store.Operators

/-!
# Instructions on stores alike

An instruction works on one processor and on the tables, the cells and the scopes that all share.
When two stores share these and each has a processor of its own that is like the other's, an
instruction that has nothing to do with coroutines comes to the same in both.
-/

namespace CoroutineVM

open Attempt

/-- Whether an instruction yields, or makes, resumes or looks at coroutines. -/
def Instruction.concernsCoroutines : Instruction → Bool
  | .yield _ | .createCoroutine | .resumeCoroutine _ | .coroutineStatus | .currentCoroutine => true
  | _ => false

namespace Store

/-- What a relation between stores has to provide, of which the processors of `id` and of `twin` are
alike. -/
structure Likeness (excused : ScriptError → Prop) (inner : Processor → Processor → Prop)
    (id twin : CoroutineId) (alike : Store → Store → Prop) : Prop where
  processors : Processor.Likeness excused inner
  onProcessor : ∀ {α : Type} {attempt : Attempt Processor α},
    Follows excused inner attempt attempt →
    Follows excused alike (onProcessor id attempt) (onProcessor twin attempt)
  chunk : ∀ {first second}, alike first second → second.chunk = first.chunk
  tables : ∀ {first second}, alike first second → second.tables = first.tables
  cells : ∀ {first second}, alike first second → second.cells = first.cells
  createCell : ∀ value, Follows excused alike (createCell value) (createCell value)
  createClosure : ∀ function cells,
    Follows excused alike (createClosure function cells) (createClosure function cells)
  writeCell : ∀ {first second}, alike first second → ∀ cell value,
    alike (first.writeCell cell value) (second.writeCell cell value)
  setGlobal : ∀ {first second}, alike first second → ∀ name value,
    alike (first.setGlobal name value) (second.setGlobal name value)

namespace Likeness

variable {excused : ScriptError → Prop} {inner : Processor → Processor → Prop}
  {id twin : CoroutineId} {alike : Store → Store → Prop}

section

variable (likeness : Likeness excused inner id twin alike)

include likeness

/-- A captured local is read from its slot and copied to a new cell; a captured variable gives the
cell of the scope that runs. Both are the same on both sides. -/
theorem capture (capture : Capture) :
    Follows excused alike (Store.capture id capture) (Store.capture twin capture) := by
  cases capture with
  | copyLocal index =>
    exact follows_bind (likeness.onProcessor (likeness.processors.loadLocal index)) fun _ =>
      likeness.createCell _
  | shareUpvalue index => exact likeness.onProcessor (likeness.processors.upvalueCell index)

/-- An operator sees nothing but its two operands. -/
theorem operator {instruction : Instruction} {operator : Operator}
    (works : instruction.operator? = some operator) (next : Nat) :
    Follows excused alike (execute id instruction next) (execute twin instruction next) := by
  rw [execute_of_operator works, execute_of_operator works]
  refine follows_bind (likeness.onProcessor ?_) fun _ => follows_pure _
  refine follows_bind likeness.processors.popOperands fun operands => ?_
  split
  · exact likeness.processors.push _
  · exact follows_fail _

/-- A call takes the same arguments and the same callee on both sides, and opens frames that are
alike. -/
theorem call (count next : Nat) :
    Follows excused alike (call id count next) (call twin count next) := by
  refine follows_bind (likeness.onProcessor (likeness.processors.popMany count)) fun arguments => ?_
  refine follows_bind (likeness.onProcessor likeness.processors.pop) fun callee => ?_
  split
  · refine follows_bind (follows_check fun both => by simp only [likeness.chunk both]) fun _ => ?_
    refine follows_bind (likeness.onProcessor ?_) fun _ => follows_pure _
    exact follows_bind (likeness.processors.push _) fun _ => likeness.processors.openFrame _ _ _ _
  · exact follows_pure _
  · exact follows_fail _

/-- The result is popped, the frame dropped and the result pushed, or handed to the host where the
frame says so. -/
theorem leaveFrame (count : Nat) :
    Follows excused alike (leaveFrame id count) (leaveFrame twin count) := by
  refine likeness.onProcessor (follows_bind (likeness.processors.popResult count) fun value => ?_)
  refine follows_bind likeness.processors.popFrame fun frame => ?_
  split
  · exact follows_pure _
  · exact follows_bind (likeness.processors.push value) fun _ => follows_pure _

/-- The operand is the same, and so is what is said when it is no coroutine. -/
theorem popCoroutine (action : String) :
    Follows excused alike (popCoroutine id action) (popCoroutine twin action) := by
  refine follows_bind (likeness.onProcessor likeness.processors.pop) fun value => ?_
  split
  · exact follows_pure _
  · exact follows_fail _

/-- A value is taken from the top first, and what follows may depend on it. -/
theorem taking {second final : Value → Attempt Store Flow}
    (after : ∀ value, Follows excused alike (second value) (final value)) :
    Follows excused alike (Store.onProcessor id Processor.pop >>= second)
      (Store.onProcessor twin Processor.pop >>= final) :=
  follows_bind (likeness.onProcessor likeness.processors.pop) after

/-- A value is pushed last. -/
theorem pushing (value : Value) (next : Nat) : Follows excused alike
    (do Store.onProcessor id (Processor.push value); return Flow.goto next)
    (do Store.onProcessor twin (Processor.push value); return Flow.goto next) :=
  follows_bind (likeness.onProcessor (likeness.processors.push value)) fun _ => follows_pure _

/-- An instruction that has nothing to do with coroutines does the same in both stores. The five
that do are excluded, since the stores may have different coroutines. -/
theorem execute {instruction : Instruction} (plain : instruction.concernsCoroutines = false)
    (next : Nat) :
    Follows excused alike (execute id instruction next) (execute twin instruction next) := by
  have onward {attempt : Attempt Processor Unit} (follows : Follows excused inner attempt attempt) :
      Follows excused alike (do Store.onProcessor id attempt; return Flow.goto next)
        (do Store.onProcessor twin attempt; return Flow.goto next) :=
    follows_bind (likeness.onProcessor follows) fun _ => follows_pure _
  cases instruction with
  | nop => exact follows_pure _
  | literal constant => exact likeness.pushing _ next
  | pop => exact likeness.taking fun _ => follows_pure _
  | arguments =>
    refine follows_bind (follows_read fun both => likeness.chunk both) fun chunk => ?_
    exact onward (likeness.processors.copyArguments chunk)
  | loadLocal index =>
    exact onward
      (follows_bind (likeness.processors.loadLocal index) fun _ => likeness.processors.push _)
  | storeLocal index =>
    exact onward
      (follows_bind likeness.processors.pop fun _ => likeness.processors.storeLocal index _)
  | loadUpvalue index =>
    refine follows_bind (likeness.onProcessor (likeness.processors.upvalueCell index))
      fun cell => ?_
    refine follows_bind (follows_read fun both => ?_) fun value => likeness.pushing value next
    simp only [readCell, likeness.cells both]
  | storeUpvalue index =>
    refine likeness.taking fun value => ?_
    refine follows_bind (likeness.onProcessor (likeness.processors.upvalueCell index))
      fun cell => ?_
    exact follows_bind (follows_modify fun both => likeness.writeCell both cell _) fun _ =>
      follows_pure _
  | loadGlobal name =>
    refine follows_bind (follows_read fun both => ?_) fun value => likeness.pushing value next
    simp only [getGlobal, likeness.tables both]
  | storeGlobal name =>
    exact likeness.taking fun value =>
      follows_bind (follows_modify fun both => likeness.setGlobal both name value) fun _ =>
        follows_pure _
  | makeClosure function captures =>
    refine follows_bind (follows_mapEach likeness.capture captures) fun cells => ?_
    exact follows_bind (likeness.createClosure function cells) fun closure =>
      likeness.pushing _ next
  | call count => exact likeness.call count next
  | ret count => exact likeness.leaveFrame count
  | tuple count =>
    exact onward
      (follows_bind (likeness.processors.popMany count) fun _ => likeness.processors.push _)
  | jump target => exact follows_pure _
  | jumpIfFalse target => exact likeness.taking fun _ => follows_pure _
  | add | subtract | less | equal | concat => exact likeness.operator rfl next
  | not => exact onward (follows_bind likeness.processors.pop fun _ => likeness.processors.push _)
  | raise => exact likeness.taking fun _ => follows_fail _
  | yield count => cases plain
  | createCoroutine => cases plain
  | resumeCoroutine count => cases plain
  | coroutineStatus => cases plain
  | currentCoroutine => cases plain

end

end Likeness

end Store

end CoroutineVM
