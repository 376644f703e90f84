import CoroutineVM.Processor.Basic
import CoroutineVM.Proofs.Attempt

/-!
# Processors alike

What an operation on a processor comes to depends on what lies on its two stacks, and on how many
more items fit only where one of them is full. A relation between processors that says of both
stacks that they hold the same, and that survives the same change of both, is therefore kept by
every operation. What happens where a stack is full is left to the relation: either both are, or the
error is excused.
-/

namespace CoroutineVM.Processor

open Attempt

/-- What a relation between processors has to provide. -/
structure Likeness (excused : ScriptError → Prop) (alike : Processor → Processor → Prop) :
    Prop where
  values : ∀ {first second}, alike first second → second.values.items = first.values.items
  frames : ∀ {first second}, alike first second → second.frames.items = first.frames.items
  setValues : ∀ {first second}, alike first second → ∀ items,
    alike { first with values := { first.values with items := items } }
      { second with values := { second.values with items := items } }
  setFrames : ∀ {first second}, alike first second → ∀ items,
    alike { first with frames := { first.frames with items := items } }
      { second with frames := { second.frames with items := items } }
  push : ∀ value, Follows excused alike (push value) (push value)
  pushFrame : ∀ closure entryPoint returnPoint, Follows excused alike
    (pushFrame closure entryPoint returnPoint) (pushFrame closure entryPoint returnPoint)

namespace Likeness

variable {excused : ScriptError → Prop} {alike : Processor → Processor → Prop}

section

variable (likeness : Likeness excused alike) {first second : Processor}

include likeness

/-! ### What is the same on both -/

/-- Whatever is computed from the items of a stack is the same on both processors, its height among
them. Capacities may differ, so that nothing is said of fullness here. -/
theorem height (both : alike first second) : second.values.height = first.values.height :=
  congrArg Array.size (likeness.values both)

/-- The frame stacks are of one height for the same reason. -/
theorem frameHeight (both : alike first second) : second.frames.height = first.frames.height :=
  congrArg Array.size (likeness.frames both)

/-- The top value is the same, also where there is none. -/
theorem top (both : alike first second) : second.values.top? = first.values.top? :=
  congrArg Array.back? (likeness.values both)

/-- The top frame is the same, and with it everything that a frame says of its window. -/
theorem topFrame (both : alike first second) : second.frames.top? = first.frames.top? :=
  congrArg Array.back? (likeness.frames both)

/-- Every slot has the same value, or is missing on both stacks. -/
theorem get (both : alike first second) (slot : Nat) :
    second.values.get? slot = first.values.get? slot :=
  congrArg (fun items : Array Value => items[slot]?) (likeness.values both)

/-- The same frames give the same base. -/
theorem base (both : alike first second) : second.base = first.base := by
  rw [Processor.base, Processor.base, likeness.topFrame both]

/-! ### The same change of both -/

/-- Dropping values is a change of the items, which the relation survives because it is made on both
sides. -/
theorem truncate (both : alike first second) (height : Nat) :
    alike { first with values := first.values.truncate height }
      { second with values := second.values.truncate height } := by
  simp only [BoundedStack.truncate, likeness.values both]
  exact likeness.setValues both _

/-- Dropping frames is such a change of the other stack. -/
theorem truncateFrames (both : alike first second) (height : Nat) :
    alike { first with frames := first.frames.truncate height }
      { second with frames := second.frames.truncate height } := by
  simp only [BoundedStack.truncate, likeness.frames both]
  exact likeness.setFrames both _

/-- So is writing a value in place. -/
theorem set (both : alike first second) (slot : Nat) (value : Value) :
    alike { first with values := first.values.set slot value }
      { second with values := second.values.set slot value } := by
  simp only [BoundedStack.set, likeness.values both]
  exact likeness.setValues both _

/-! ### Operations -/

/-- A pop compares the height with the base and takes the top: all three are the same on both. -/
theorem pop : Follows excused alike pop pop := by
  intro first second both
  simp only [Processor.pop, likeness.height both, likeness.base both, likeness.top both]
  split
  · exact .inr ⟨rfl, both⟩
  · split
    · exact .inr ⟨rfl, likeness.truncate both _⟩
    · exact .inr ⟨rfl, both⟩

/-- The values that are taken lie at the same heights, and both stacks are cut at the same
height. -/
theorem popMany (count : Nat) : Follows excused alike (popMany count) (popMany count) := by
  intro first second both
  have items : second.values.topItems count = first.values.topItems count := by
    simp only [BoundedStack.topItems, BoundedStack.height, likeness.values both]
  simp only [Processor.popMany, likeness.height both, likeness.base both, items]
  split
  · exact .inr ⟨rfl, both⟩
  · exact .inr ⟨rfl, likeness.truncate both _⟩

/-- A result of no values, of one or of several: each form is an operation that has been
compared. -/
theorem popResult (count : Nat) : Follows excused alike (popResult count) (popResult count) := by
  unfold Processor.popResult
  split
  · exact follows_pure _
  · exact likeness.pop
  · exact follows_bind (likeness.popMany _) fun _ => follows_pure _

/-- Two pops one after the other. -/
theorem popOperands : Follows excused alike popOperands popOperands :=
  follows_bind likeness.pop fun _ => follows_bind likeness.pop fun _ => follows_pure _

/-- The top frame is there on both or on neither. -/
theorem currentFrame : Follows excused alike currentFrame currentFrame :=
  follows_check fun both => by simp only [likeness.topFrame both]

/-- A slot is counted from the base. -/
theorem localSlot (index : Nat) : Follows excused alike (localSlot index) (localSlot index) :=
  follows_check fun both => by simp only [likeness.base both]

/-- The slot is the same and has the same value. -/
theorem loadLocal (index : Nat) : Follows excused alike (loadLocal index) (loadLocal index) :=
  follows_bind (likeness.localSlot index) fun slot => follows_check fun both => by
    simp only [likeness.get both slot]

/-- The slot is the same, and the same value is written to it on both sides. -/
theorem storeLocal (index : Nat) (value : Value) :
    Follows excused alike (storeLocal index value) (storeLocal index value) := by
  refine follows_bind (likeness.localSlot index) fun slot => ?_
  intro first second both
  simp only [likeness.height both]
  split
  · exact .inr ⟨rfl, likeness.set both slot value⟩
  · exact .inr ⟨rfl, both⟩

/-- The scope is that of the top frame, so that the cell is the same. -/
theorem upvalueCell (index : Nat) :
    Follows excused alike (upvalueCell index) (upvalueCell index) := by
  refine follows_bind likeness.currentFrame fun frame => ?_
  split
  · exact follows_pure _
  · exact follows_fail _

/-- The number of arguments is read from the same slot. -/
theorem argumentCount (frame : Frame) :
    Follows excused alike (argumentCount frame) (argumentCount frame) :=
  follows_check fun both => by simp only [likeness.get both frame.countSlot]

/-- Pushing is compared by the relation itself, which decides what is said where a stack is full;
here it is only repeated. -/
theorem pushArguments (arguments : List Value) :
    Follows excused alike (pushArguments arguments) (pushArguments arguments) :=
  follows_bind (follows_forEach likeness.push _) fun _ => likeness.push _

/-- After the arguments the frame is opened at the same height on both sides. -/
theorem openFrame (closure : Closure) (arguments : List Value) (entryPoint : Nat)
    (returnPoint : ReturnPoint) : Follows excused alike
      (do Processor.pushArguments arguments; Processor.pushFrame closure entryPoint returnPoint)
      (do Processor.pushArguments arguments; Processor.pushFrame closure entryPoint returnPoint) :=
  follows_bind (likeness.pushArguments arguments) fun _ => likeness.pushFrame _ _ _

/-- A return reads the number of arguments before it drops what lies above the callee, and both are
the same on the two sides. The frame is dropped first, so the relation has to survive that as
well. -/
theorem popFrame : Follows excused alike popFrame popFrame := by
  refine follows_bind likeness.currentFrame fun frame => ?_
  refine follows_bind (follows_modify fun both => ?_) fun _ => ?_
  · rw [likeness.frameHeight both]
    exact likeness.truncateFrames both _
  refine follows_bind (likeness.argumentCount frame) fun count => ?_
  split
  · exact follows_fail _
  · exact follows_bind (follows_modify fun both => likeness.truncate both _) fun _ => follows_pure _

/-- By induction on the number of parameters that are left to bind. -/
theorem pushParameters (given : List Value) (parameters : Nat) :
    Follows excused alike (pushParameters given parameters) (pushParameters given parameters) := by
  induction parameters generalizing given with
  | zero => exact follows_pure ()
  | succ parameters inductionHypothesis =>
    exact follows_bind (likeness.push _) fun _ => inductionHypothesis given.tail

/-- The block of arguments lies in the same slots with the same values, and the function whose
parameters are bound is named by the same frame. -/
theorem copyArguments (chunk : Chunk) :
    Follows excused alike (copyArguments chunk) (copyArguments chunk) := by
  refine follows_bind likeness.currentFrame fun frame => ?_
  split
  · exact follows_fail _
  · refine follows_bind (likeness.argumentCount frame) fun count => ?_
    split
    · exact follows_fail _
    · refine follows_bind (follows_read fun both => by simp only [likeness.values both])
        fun given => ?_
      refine follows_bind (likeness.pushParameters given _) fun _ => ?_
      split
      · exact likeness.push _
      · exact follows_pure _

/-- A call without a callee looks at the top value, which is the same; from there on both push and
open the same things. -/
theorem enterFromHost (chunk : Chunk) (callee : Option Value) (arguments : List Value) :
    Follows excused alike (enterFromHost chunk callee arguments)
      (enterFromHost chunk callee arguments) := by
  refine follows_bind (follows_read fun both => by simp only [likeness.top both]) fun called => ?_
  split
  · refine follows_bind (follows_check fun _ => rfl) fun entryPoint => ?_
    split
    · exact follows_bind (likeness.push _) fun _ => follows_bind (likeness.pushArguments _) fun _ =>
        follows_bind (likeness.pushFrame _ _ _) fun _ => follows_pure _
    · exact follows_bind (likeness.pushArguments _) fun _ =>
        follows_bind (likeness.pushFrame _ _ _) fun _ => follows_pure _
  · exact follows_fail _

end

end Likeness

end CoroutineVM.Processor
