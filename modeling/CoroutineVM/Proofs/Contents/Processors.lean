import CoroutineVM.Proofs.Contents.Values
import CoroutineVM.Proofs.Processor.Frames

/-!
# What a processor may contain

A processor obeys a regime when its stacks hold nothing else than the regime admits. The places in
the code that it has to go on at are part of that: a frame begins where a function does, it returns
to the instruction after a call, and a suspended coroutine goes on after a yield. Every operation on
a processor upholds this.
-/

namespace CoroutineVM

namespace Instruction

/-- Whether control can come back behind this instruction from a call. -/
def isCall : Instruction → Bool
  | .call _ => true
  | _ => false

def isReturn : Instruction → Bool
  | .ret _ => true
  | _ => false

def isYield : Instruction → Bool
  | .yield _ => true
  | _ => false

def isResume : Instruction → Bool
  | .resumeCoroutine _ => true
  | _ => false

end Instruction

namespace Chunk

/-- A function begins here. -/
def Enters (chunk : Chunk) (pointer : Nat) : Prop :=
  ∃ index function, chunk.function? index = some function ∧ function.entryPoint = pointer

/-- An instruction of this kind is the one before. -/
def Follows (chunk : Chunk) (kind : Instruction → Bool) (pointer : Nat) : Prop :=
  ∃ place instruction, chunk.instruction? place = some instruction ∧ kind instruction = true ∧
    pointer = place + 1

/-- The place at which a closure is entered is the beginning of a function of the chunk. -/
theorem enters_of_entryPoint {chunk : Chunk} {closure : Closure} {pointer : Nat}
    (found : chunk.entryPoint closure = .ok pointer) : chunk.Enters pointer := by
  rw [entryPoint] at found
  split at found
  next function defined => exact ⟨_, function, defined, Except.ok.inj found⟩
  next => cases found

end Chunk

/-- The entry point of a closure is missed only where its function is. -/
theorem Regime.raised_entryPoint {regime : Regime} {closure : Closure} {error : ScriptError}
    (allowed : regime.closure closure)
    (missed : regime.chunk.entryPoint closure = .error error) : regime.raised error := by
  rw [Chunk.entryPoint] at missed
  split at missed
  next => cases missed
  next undefined =>
    cases missed
    exact regime.misses closure allowed undefined

/-- A frame runs a closure that there may be, from the beginning of a function, and returns to the
place after a call. -/
structure Frame.Obeys (regime : Regime) (frame : Frame) : Prop where
  closure : regime.closure ⟨frame.function, frame.scope⟩
  enters : regime.chunk.Enters frame.entryPoint
  returns : ∀ pointer, frame.returnPoint = .instruction pointer →
    regime.chunk.Follows Instruction.isCall pointer

namespace Processor

/-- Nothing in the processor is outside of the regime. -/
structure Obeys (regime : Regime) (processor : Processor) : Prop where
  values : ∀ value ∈ processor.values.toList, regime.Carried value
  frames : ∀ frame ∈ processor.frames.toList, frame.Obeys regime
  entry : ∀ closure, processor.entry = some closure → regime.closure closure
  saved : ∀ pointer, processor.savedPointer = some pointer →
    regime.chunk.Follows Instruction.isYield pointer

variable {regime : Regime} {α : Type}

/-- An operation that upholds the regime and comes to a result as stated. -/
abbrev Upholds (regime : Regime) (shape : α → Prop) (attempt : Attempt Processor α) : Prop :=
  attempt.Upholds (Obeys regime) regime.raised shape

/-- A processor whose values are among those of another one, and nothing else is changed. -/
theorem Obeys.ofValues {processor : Processor} (obeys : processor.Obeys regime)
    {values : BoundedStack Value} (kept : ∀ value ∈ values.toList, regime.Carried value) :
    Obeys regime { processor with values := values } :=
  ⟨kept, obeys.frames, obeys.entry, obeys.saved⟩

/-- Taking values off the top brings nothing new onto the stack. -/
theorem Obeys.truncate {processor : Processor} (obeys : processor.Obeys regime) (height : Nat) :
    Obeys regime { processor with values := processor.values.truncate height } :=
  obeys.ofValues fun value member => by
    rw [BoundedStack.toList_truncate] at member
    exact obeys.values value (List.mem_of_mem_take member)

/-- Nor does going back to the heights and the flag from before a call. -/
theorem Obeys.restore {processor : Processor} (obeys : processor.Obeys regime)
    (valueHeight frameHeight : Nat) (mayYield : Bool) :
    Obeys regime (processor.restore valueHeight frameHeight mayYield) where
  values := (obeys.truncate valueHeight).values
  frames := fun frame member => by
    rw [Processor.restore, BoundedStack.toList_truncate] at member
    exact obeys.frames frame (List.mem_of_mem_take member)
  entry := obeys.entry
  saved := obeys.saved

/-- A processor that has been cleared has nothing on its stacks and no place to go on at. -/
theorem Obeys.clear {processor : Processor} (obeys : processor.Obeys regime) :
    Obeys regime processor.clear where
  values := fun _ member => by cases member
  frames := fun _ member => by cases member
  entry := obeys.entry
  saved := fun _ saved => by cases saved

/-- A new processor has nothing but the closure that it will begin with. -/
theorem obeys_idle (valueCapacity frameCapacity : Nat) {entry : Option Closure}
    (allowed : ∀ closure, entry = some closure → regime.closure closure) :
    Obeys regime (.idle valueCapacity frameCapacity entry) where
  values := fun _ member => by cases member
  frames := fun _ member => by cases member
  entry := allowed
  saved := fun _ saved => by cases saved

/-- No error but that of a missing function depends on the regime. -/
theorem upholds_fails {shape : α → Prop} {error : ScriptError}
    (other : ∀ function, error ≠ .undefinedFunction function) :
    Upholds regime shape (Attempt.fail error) := Attempt.upholds_fail (regime.raises error other)

/-- An operation that only looks at the processor upholds what it finds there. Its errors are within
the regime whenever they name no function, which is the one error that a regime may exclude. -/
theorem upholds_looks {shape : α → Prop} {look : Processor → Except ScriptError α}
    (found : ∀ processor result, Obeys regime processor → look processor = .ok result →
      shape result)
    (missed : ∀ processor error, look processor = .error error →
      ∀ function, error ≠ .undefinedFunction function) :
    Upholds regime shape (Attempt.check look) :=
  Attempt.upholds_check found fun processor error _ looked =>
    regime.raises error (missed processor error looked)

/-! ### Values -/

/-- A push brings the value onto the stack that it is given, if there is room for it. -/
theorem upholds_push {value : Value} (carried : regime.Carried value) :
    Upholds regime (fun _ => True) (push value) := by
  intro processor obeys
  by_cases full : processor.values.isFull = true
  · exact Attempt.ends_error (if_pos full)
      ⟨regime.raises _ (fun _ => ScriptError.noConfusion), obeys⟩
  · refine Attempt.ends_ok (if_neg full) ⟨trivial, obeys.ofValues ?_⟩
    rw [BoundedStack.toList_append]
    exact List.forall_mem_append.mpr ⟨obeys.values, List.forall_mem_singleton.mpr carried⟩

/-- A pop takes a value from the stack, and that value is one that the regime admits there. -/
theorem upholds_pop : Upholds regime regime.Carried pop := by
  intro processor obeys
  by_cases empty : processor.values.height ≤ processor.base
  · exact Attempt.ends_error (if_pos empty)
      ⟨regime.raises _ (fun _ => ScriptError.noConfusion), obeys⟩
  · cases top : processor.values.top? with
    | none =>
      have failed : pop processor = (.error (.invalidStackAccess 0), processor) := by
        simp only [pop, empty, if_false, top]
      exact Attempt.ends_error failed ⟨regime.raises _ (fun _ => ScriptError.noConfusion), obeys⟩
    | some value =>
      have popped : pop processor = (.ok value, { processor with
          values := processor.values.truncate (processor.values.height - 1) }) := by
        simp only [pop, empty, if_false, top]
      rw [BoundedStack.top?_eq] at top
      exact Attempt.ends_ok popped ⟨obeys.values value (List.mem_of_getLast? top), obeys.truncate _⟩

/-- So are those that are popped together. -/
theorem upholds_popMany (count : Nat) :
    Upholds regime (fun values => ∀ value ∈ values, regime.Allows value) (popMany count) := by
  intro processor obeys
  by_cases short : processor.values.height < processor.base + count
  · exact Attempt.ends_error (if_pos short)
      ⟨regime.raises _ (fun _ => ScriptError.noConfusion), obeys⟩
  · refine Attempt.ends_ok (if_neg short) ⟨fun value member => ?_, obeys.truncate _⟩
    rw [BoundedStack.topItems_eq] at member
    exact (obeys.values value (List.mem_of_mem_drop member)).allowed

/-- What is popped as one result is carried: nil for no value, a single value as it is, and several
as a tuple of what they spread to, in which there is no tuple. -/
theorem upholds_popResult (count : Nat) : Upholds regime regime.Carried (popResult count) := by
  unfold popResult
  split
  · exact Attempt.upholds_pure (Regime.carried_plain rfl (fun _ => Value.noConfusion))
  · exact upholds_pop
  · exact Attempt.upholds_bind (upholds_popMany _) fun values given =>
      Attempt.upholds_pure (Regime.carried_pack_spread given)

/-- The two operands of an operator are popped, and nothing is said of them, since what an operator
makes of them is never a closure. -/
theorem upholds_popOperands : Upholds regime (fun _ => True) popOperands :=
  Attempt.upholds_bind upholds_pop fun _ _ =>
    Attempt.upholds_bind upholds_pop fun _ _ => Attempt.upholds_pure trivial

/-- Looking for a local changes nothing and names no function if there is none. -/
theorem upholds_localSlot (index : Nat) : Upholds regime (fun _ => True) (localSlot index) := by
  refine upholds_looks (fun _ _ _ _ => trivial) ?_
  rintro processor _ missed function rfl
  dsimp only at missed
  split at missed <;> cases missed

/-- A local is a value of the stack. -/
theorem upholds_loadLocal (index : Nat) : Upholds regime regime.Carried (loadLocal index) := by
  refine Attempt.upholds_bind (upholds_localSlot index) fun slot _ => upholds_looks ?_ ?_
  · intro processor value obeys found
    split at found
    next present =>
      cases found
      rw [BoundedStack.get?_eq] at present
      exact obeys.values value (List.mem_of_getElem? present)
    next => cases found
  · rintro processor _ missed function rfl
    split at missed <;> cases missed

/-- A local is written to with a value that may lie on the stack; the others stay. -/
theorem upholds_storeLocal (index : Nat) {value : Value} (carried : regime.Carried value) :
    Upholds regime (fun _ => True) (storeLocal index value) := by
  refine Attempt.upholds_bind (upholds_localSlot index) fun slot _ processor obeys => ?_
  by_cases present : slot < processor.values.height
  · refine Attempt.ends_ok (if_pos present) ⟨trivial, obeys.ofValues fun stored member => ?_⟩
    rw [BoundedStack.toList_set] at member
    obtain among | rfl := List.mem_or_eq_of_mem_set member
    · exact obeys.values stored among
    · exact carried
  · exact Attempt.ends_error (if_neg present)
      ⟨regime.raises _ (fun _ => ScriptError.noConfusion), obeys⟩

/-! ### Frames -/

/-- The top frame is a frame of the processor, so that the regime holds of it. -/
theorem upholds_currentFrame : Upholds regime (Frame.Obeys regime) currentFrame := by
  refine upholds_looks ?_ ?_
  · intro processor frame obeys found
    split at found
    next top =>
      cases found
      rw [BoundedStack.top?_eq] at top
      exact obeys.frames frame (List.mem_of_getLast? top)
    next => cases found
  · rintro processor _ missed function rfl
    split at missed <;> cases missed

/-- Looking for the cell of an upvalue changes nothing. -/
theorem upholds_upvalueCell (index : Nat) : Upholds regime (fun _ => True) (upvalueCell index) := by
  refine Attempt.upholds_bind upholds_currentFrame fun frame _ => ?_
  split
  · exact Attempt.upholds_pure trivial
  · exact upholds_fails (fun _ => ScriptError.noConfusion)

/-- Nor does looking for the number of arguments. -/
theorem upholds_argumentCount (frame : Frame) :
    Upholds regime (fun _ => True) (argumentCount frame) := by
  refine upholds_looks (fun _ _ _ _ => trivial) ?_
  rintro processor _ missed function rfl
  split at missed <;> cases missed

/-- Arguments are spread before they are pushed, so that no tuple within them gets onto the stack,
and their number is no closure. -/
theorem upholds_pushArguments {arguments : List Value}
    (given : ∀ argument ∈ arguments, regime.Allows argument) :
    Upholds regime (fun _ => True) (pushArguments arguments) :=
  Attempt.upholds_bind
    (Attempt.upholds_forEach fun argument member =>
      upholds_push (Regime.carried_spread given argument member))
    fun _ _ => upholds_push (Regime.carried_plain rfl (fun _ => Value.noConfusion))

/-- A frame is pushed for a closure that the regime admits. It begins where a function does, and it
returns to an instruction behind a call. -/
theorem upholds_pushFrame {closure : Closure} {entryPoint : Nat} {returnPoint : ReturnPoint}
    (allowed : regime.closure closure) (found : regime.chunk.entryPoint closure = .ok entryPoint)
    (returns : ∀ pointer, returnPoint = .instruction pointer →
      regime.chunk.Follows Instruction.isCall pointer) :
    Upholds regime (fun _ => True) (pushFrame closure entryPoint returnPoint) := by
  intro processor obeys
  by_cases full : processor.frames.isFull = true
  · exact Attempt.ends_error (if_pos full)
      ⟨regime.raises _ (fun _ => ScriptError.noConfusion), obeys⟩
  · refine Attempt.ends_ok (if_neg full) ⟨trivial, obeys.values, ?_, obeys.entry, obeys.saved⟩
    dsimp only
    rw [BoundedStack.toList_append]
    exact List.forall_mem_append.mpr ⟨obeys.frames, List.forall_mem_singleton.mpr
      ⟨allowed, Chunk.enters_of_entryPoint found, returns⟩⟩

/-- A frame that is popped was one of the processor. -/
theorem upholds_popFrame : Upholds regime (Frame.Obeys regime) popFrame := by
  refine Attempt.upholds_bind upholds_currentFrame fun frame entered => ?_
  refine Attempt.upholds_bind (Attempt.upholds_modify fun processor obeys => ?_) fun _ _ => ?_
  · refine ⟨obeys.values, fun other member => ?_, obeys.entry, obeys.saved⟩
    rw [BoundedStack.toList_truncate] at member
    exact obeys.frames other (List.mem_of_mem_take member)
  · refine Attempt.upholds_bind (upholds_argumentCount frame) fun count _ => ?_
    split
    · exact upholds_fails (fun _ => ScriptError.noConfusion)
    · exact Attempt.upholds_bind (Attempt.upholds_modify fun _ obeys => obeys.truncate _)
        fun _ _ => Attempt.upholds_pure entered

/-! ### Entry -/

/-- The host enters a function of the chunk with what it supplies: the callee may be its own or lie
on the stack, and either way the regime admits the closure that it stands for. -/
theorem upholds_enterFromHost {callee : Option Value} {arguments : List Value}
    (called : ∀ value, callee = some value → regime.Allows value)
    (given : ∀ argument ∈ arguments, regime.Allows argument) :
    Upholds regime regime.chunk.Enters (enterFromHost regime.chunk callee arguments) := by
  have looks : Upholds regime regime.Allows (Attempt.read fun processor : Processor =>
      callee.getD (processor.values.top?.getD .nil)) := by
    refine Attempt.upholds_read fun processor obeys => ?_
    cases callee with
    | some value => exact called value rfl
    | none =>
      cases top : processor.values.top? with
      | none => exact Regime.allows_plain rfl (fun _ => Value.noConfusion)
      | some value =>
        rw [BoundedStack.top?_eq] at top
        exact (obeys.values value (List.mem_of_getLast? top)).allowed
  refine Attempt.upholds_bind looks fun value allowed => ?_
  split
  next closure isClosure =>
    have good := allowed.closure isClosure
    refine Attempt.upholds_bind (Attempt.upholds_check (fun _ _ _ found => found)
      fun _ _ _ missed => Regime.raised_entryPoint good missed) fun entryPoint found => ?_
    have opens : Upholds regime regime.chunk.Enters (do
        pushArguments arguments
        pushFrame closure entryPoint .host
        return entryPoint) :=
      Attempt.upholds_bind (upholds_pushArguments given) fun _ _ =>
        Attempt.upholds_bind (upholds_pushFrame good found (fun _ => ReturnPoint.noConfusion))
          fun _ _ => Attempt.upholds_pure (Chunk.enters_of_entryPoint found)
    dsimp only
    split
    · exact Attempt.upholds_bind (upholds_push (Regime.carried_closure good)) fun _ _ => opens
    · exact opens
  next => exact upholds_fails (fun _ => ScriptError.noConfusion)

/-- Parameters are bound to given values and to nil. The induction is on the number of parameters,
over all lists of values, since each one takes the first of them away. -/
theorem upholds_pushParameters {given : List Value}
    (carried : ∀ value ∈ given, regime.Carried value) (parameters : Nat) :
    Upholds regime (fun _ => True) (pushParameters given parameters) := by
  induction parameters generalizing given with
  | zero => exact Attempt.upholds_pure trivial
  | succ parameters inductionHypothesis =>
    refine Attempt.upholds_bind (upholds_push ?_) fun _ _ =>
      inductionHypothesis fun value member => carried value (List.mem_of_mem_tail member)
    cases given with
    | nil => exact Regime.carried_plain rfl (fun _ => Value.noConfusion)
    | cons value rest => exact carried value List.mem_cons_self

/-- What lies where the arguments of a frame are, if so many have been passed. -/
def block (processor : Processor) (frame : Frame) (count : Nat) : List Value :=
  (processor.values.items.extract (frame.countSlot - count) frame.countSlot).toList

/-- No tuple is among the arguments of a frame. -/
def Clear (processor : Processor) (frame : Frame) : Prop :=
  ∀ count, (processor.values.get? frame.countSlot).bind countOf? = some count →
    ∀ value ∈ processor.block frame count, value.isTuple = false

/-- What lies in the argument block of a frame lies on the stack. -/
theorem Obeys.block {processor : Processor} (obeys : processor.Obeys regime) (frame : Frame)
    (count : Nat) : ∀ value ∈ processor.block frame count, regime.Carried value := by
  intro value member
  rw [Processor.block, Array.toList_extract] at member
  exact obeys.values value (List.mem_of_mem_drop (List.mem_of_mem_take member))

/-- A variadic function gets its other arguments as one tuple. -/
theorem upholds_copies {given : List Value} (carried : ∀ value ∈ given, regime.Carried value)
    (single : regime.flat → ∀ value ∈ given, value.isTuple = false) (function : FunctionEntry) :
    Upholds regime (fun _ => True) (do
      pushParameters given function.parameters
      if function.variadic then push (.tuple (given.drop function.parameters))) := by
  refine Attempt.upholds_bind (upholds_pushParameters carried _) fun _ _ => ?_
  split
  · apply upholds_push
    constructor
    · exact Regime.allows_tuple fun value member =>
        (carried value (List.mem_of_mem_drop member)).allowed
    · exact fun flat value member => single flat value (List.mem_of_mem_drop member)
  · exact Attempt.upholds_pure trivial

/-- The regime may ask for arguments that are no tuples themselves. Then it has to be known of the
top frame that its block holds none, since the ones that are left over are put into a tuple here. -/
theorem copyArguments_obeys {processor : Processor} (obeys : processor.Obeys regime)
    (clear : regime.flat → ∀ frame, processor.frames.top? = some frame → processor.Clear frame) :
    (copyArguments regime.chunk).Ends processor (fun _ after => True ∧ after.Obeys regime)
      (fun error after => regime.raised error ∧ after.Obeys regime) := by
  refine Attempt.ends_bind_check ?_ fun error missed => ?_
  · intro frame found
    have top : processor.frames.top? = some frame := by
      split at found
      next top => exact Except.ok.inj found ▸ top
      next => cases found
    have entered : frame.Obeys regime := by
      have last := top
      rw [BoundedStack.top?_eq] at last
      exact obeys.frames frame (List.mem_of_getLast? last)
    split
    next undefined =>
      exact Attempt.ends_fail ⟨regime.misses _ entered.closure undefined, obeys⟩
    next function defined =>
      refine Attempt.ends_bind_check ?_ fun error missed => ?_
      · intro count counts
        have counted : (processor.values.get? frame.countSlot).bind countOf? = some count := by
          split at counts
          next counted => exact Except.ok.inj counts ▸ counted
          next => cases counts
        split
        · exact Attempt.ends_fail ⟨regime.raises _ (fun _ => ScriptError.noConfusion), obeys⟩
        · exact Attempt.ends_bind_read (upholds_copies (obeys.block frame count)
            (fun flat => clear flat frame top count counted) function processor obeys)
      · refine ⟨regime.raises _ ?_, obeys⟩
        rintro function rfl
        split at missed <;> cases missed
  · refine ⟨regime.raises _ ?_, obeys⟩
    rintro function rfl
    split at missed <;> cases missed

end Processor

end CoroutineVM
