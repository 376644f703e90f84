import CoroutineVM.Processor.Basic
import CoroutineVM.Proofs.Attempt

/-!
# Work inside a window

The values at or above the base of the top frame are its window. Everything that code does between
two changes of the frame stack stays inside it: values below the base are not touched, the height
does not fall under the base, and nothing else about the processor changes. `Keeps` states this of
two states of a processor, and the lemmas establish it for every operation that instructions are
made of.

An operation that only pushes does less: all that was there stays. `Grows` states that. It is what
the preparation of a call does before it fails for want of room, and the heights that a call goes
back to may lie above the base of the frame that it starts from.
-/

namespace CoroutineVM

/-- Whether work on a processor can raise the error by itself. The refusals of a guard and of a
coroutine that is dead come from outside. -/
def ScriptError.isOwn : ScriptError → Bool
  | .crossThreadAccess _ _ | .coroutineDead => false
  | _ => true

namespace Processor

/-- Nothing but the two stacks differs, and the stacks have their old capacities. -/
structure Aligned (before after : Processor) : Prop where
  entry : after.entry = before.entry
  mayYield : after.mayYield = before.mayYield
  savedPointer : after.savedPointer = before.savedPointer
  guard : after.guard = before.guard
  valueCapacity : after.values.capacity = before.values.capacity
  frameCapacity : after.frames.capacity = before.frames.capacity
  room : before.values.height ≤ before.values.capacity →
    after.values.height ≤ after.values.capacity
  frameRoom : before.frames.height ≤ before.frames.capacity →
    after.frames.height ≤ after.frames.capacity

/-- Only the window of the top frame has changed. -/
structure Keeps (before after : Processor) : Prop extends Aligned before after where
  frames : after.frames = before.frames
  height : before.base ≤ before.values.height → before.base ≤ after.values.height
  below : before.base ≤ before.values.height →
    after.values.toList.take before.base = before.values.toList.take before.base

/-- Values have been added on top, and that is all. -/
structure Grows (before after : Processor) : Prop extends Aligned before after where
  frames : after.frames = before.frames
  added : ∃ values, after.values.toList = before.values.toList ++ values

/-- A processor is aligned with itself, and alignment is passed on from step to step. -/
theorem Aligned.refl (processor : Processor) : Aligned processor processor :=
  ⟨rfl, rfl, rfl, rfl, rfl, rfl, id, id⟩

/-- Room is an implication and not a bound, so that it composes as well: a stack that was within its
capacity stays within it. -/
theorem Aligned.trans {first second third : Processor} (left : Aligned first second)
    (right : Aligned second third) : Aligned first third where
  entry := right.entry.trans left.entry
  mayYield := right.mayYield.trans left.mayYield
  savedPointer := right.savedPointer.trans left.savedPointer
  guard := right.guard.trans left.guard
  valueCapacity := right.valueCapacity.trans left.valueCapacity
  frameCapacity := right.frameCapacity.trans left.frameCapacity
  room := fun fits => right.room (left.room fits)
  frameRoom := fun fits => right.frameRoom (left.frameRoom fits)

/-- The base is that of the top frame, so the same frames have the same base. -/
theorem base_congr {first second : Processor} (same : second.frames = first.frames) :
    second.base = first.base := by
  rw [base, base, same]

/-- An operation that does nothing keeps to the window. -/
theorem Keeps.refl (processor : Processor) : Keeps processor processor where
  toAligned := Aligned.refl processor
  frames := rfl
  height := id
  below := fun _ => rfl

/-- What keeps to the window leaves the base where it is, so the next operation works in the same
window. -/
theorem Keeps.trans {first second third : Processor} (left : Keeps first second)
    (right : Keeps second third) : Keeps first third := by
  have base := base_congr left.frames
  refine ⟨left.toAligned.trans right.toAligned, right.frames.trans left.frames, ?_, ?_⟩
  · intro fits
    have middle := left.height fits
    rw [← base] at middle ⊢
    exact right.height middle
  · intro fits
    have middle := left.height fits
    have rest := left.below fits
    rw [← base] at middle rest ⊢
    exact (right.below middle).trans rest

/-- An operation that adds nothing grows by no values. -/
theorem Grows.refl (processor : Processor) : Grows processor processor where
  toAligned := Aligned.refl processor
  frames := rfl
  added := ⟨[], by simp⟩

/-- The values that are added one after the other are added together. -/
theorem Grows.trans {first second third : Processor} (left : Grows first second)
    (right : Grows second third) : Grows first third := by
  obtain ⟨one, leftAdded⟩ := left.added
  obtain ⟨two, rightAdded⟩ := right.added
  refine ⟨left.toAligned.trans right.toAligned, right.frames.trans left.frames, one ++ two, ?_⟩
  rw [rightAdded, leftAdded, List.append_assoc]

/-- All that lies at or below a height of before is still there. The height may be above the base of
the top frame, which `Keeps` says nothing about. -/
theorem Grows.take {before after : Processor} (grows : Grows before after) {height : Nat}
    (inside : height ≤ before.values.height) :
    after.values.toList.take height = before.values.toList.take height := by
  obtain ⟨values, added⟩ := grows.added
  rw [added, List.take_append_of_le_length (by simpa using inside)]

/-- A stack to which values are added does not become lower. -/
theorem Grows.height {before after : Processor} (grows : Grows before after) :
    before.values.height ≤ after.values.height := by
  obtain ⟨values, added⟩ := grows.added
  have lengths := congrArg List.length added
  simp only [BoundedStack.length_toList, List.length_append] at lengths
  omega

/-- Values on top of all others are in the window, wherever its base is. -/
theorem Grows.keeps {before after : Processor} (grows : Grows before after) :
    Keeps before after where
  toAligned := grows.toAligned
  frames := grows.frames
  height := fun fits => Nat.le_trans fits grows.height
  below := fun fits => grows.take fits

/-! ### Operations -/

variable {α β : Type}

/-- An operation that works inside the window, also when it fails. -/
def InWindow (attempt : Attempt Processor α) : Prop :=
  ∀ before, attempt.Ends before (fun _ after => Keeps before after)
    (fun error after => Keeps before after ∧ error.isOwn = true)

/-- An operation that only adds values, also when it fails. -/
def OnlyGrows (attempt : Attempt Processor α) : Prop :=
  ∀ before, attempt.Ends before (fun _ after => Grows before after)
    (fun error after => Grows before after ∧ error.isOwn = true)

/-- What only adds values works in the window. Facts about pushing are proved in the stronger form
and carried over. -/
theorem OnlyGrows.inWindow {attempt : Attempt Processor α} (grows : OnlyGrows attempt) :
    InWindow attempt := fun before =>
  (grows before).mono (fun _ _ reached => reached.keeps)
    (fun _ _ reached => ⟨reached.1.keeps, reached.2⟩)

/-- Doing nothing works in every window. -/
theorem inWindow_pure (result : α) : InWindow (pure result : Attempt Processor α) := fun before =>
  Attempt.ends_pure (Keeps.refl before)

/-- A failure at once works in every window; the error has to be one that work on a processor can
raise. -/
theorem inWindow_fail {error : ScriptError} (own : error.isOwn = true) :
    InWindow (Attempt.fail error : Attempt Processor α) := fun before =>
  Attempt.ends_fail ⟨Keeps.refl before, own⟩

/-- Reading changes nothing. -/
theorem inWindow_read (look : Processor → α) : InWindow (Attempt.read look) := fun before =>
  Attempt.ends_read (Keeps.refl before)

/-- A check changes nothing, either, and only its errors have to be looked at. -/
theorem inWindow_check {look : Processor → Except ScriptError α}
    (own : ∀ processor error, look processor = .error error → error.isOwn = true) :
    InWindow (Attempt.check look) := fun before =>
  Attempt.ends_check (fun _ _ => Keeps.refl before)
    (fun error missed => ⟨Keeps.refl before, own before error missed⟩)

/-- Two operations in the window are one. The second one starts after the first and is compared with
the state before both. -/
theorem inWindow_bind {first : Attempt Processor β} {second : β → Attempt Processor α}
    (left : InWindow first) (right : ∀ result, InWindow (second result)) :
    InWindow (first >>= second) := fun before =>
  Attempt.ends_bind (left before) fun result next between =>
    (right result next).mono (fun _ _ reached => between.trans reached)
      (fun _ _ reached => ⟨between.trans reached.1, reached.2⟩)

/-- Doing nothing adds nothing. -/
theorem onlyGrows_pure (result : α) : OnlyGrows (pure result : Attempt Processor α) := fun before =>
  Attempt.ends_pure (Grows.refl before)

/-- Two operations that add values add them one above the other. -/
theorem onlyGrows_bind {first : Attempt Processor β} {second : β → Attempt Processor α}
    (left : OnlyGrows first) (right : ∀ result, OnlyGrows (second result)) :
    OnlyGrows (first >>= second) := fun before =>
  Attempt.ends_bind (left before) fun result next between =>
    (right result next).mono (fun _ _ reached => between.trans reached)
      (fun _ _ reached => ⟨between.trans reached.1, reached.2⟩)

/-! ### Values -/

/-- A push adds its value, or there is no room and it adds none. No other operation adds values, so
this is where the capacity is compared. -/
theorem onlyGrows_push (value : Value) : OnlyGrows (push value) := by
  intro before
  by_cases full : before.values.isFull = true
  · exact Attempt.ends_error (if_pos full) ⟨Grows.refl before, rfl⟩
  · refine Attempt.ends_ok (if_neg full)
      ⟨⟨rfl, rfl, rfl, rfl, rfl, rfl, fun _ => ?_, id⟩, rfl, [value], ?_⟩
    · rw [BoundedStack.isFull_iff] at full
      simp only [BoundedStack.height_append, BoundedStack.capacity_append]
      omega
    · exact BoundedStack.toList_append _ _

/-- A push is work inside the window, as it puts a value on top. -/
theorem inWindow_push (value : Value) : InWindow (push value) := (onlyGrows_push value).inWindow

/-- Dropping values down to a height that is not below the base stays inside the window. -/
theorem keeps_truncate (before : Processor) {height : Nat} (inside : before.base ≤ height) :
    Keeps before { before with values := before.values.truncate height } := by
  refine ⟨⟨rfl, rfl, rfl, rfl, rfl, rfl, ?_, id⟩, rfl, ?_, ?_⟩
  · intro fits
    simp only [BoundedStack.height_truncate, BoundedStack.capacity_truncate]
    omega
  · intro fits
    simp only [BoundedStack.height_truncate]
    omega
  · intro _
    simp only [BoundedStack.toList_truncate, List.take_take]
    rw [Nat.min_eq_left inside]

/-- So many values have been taken from the top of the window. -/
structure Taken (count : Nat) (before after : Processor) : Prop where
  within : before.base + count ≤ before.values.height
  left : after = { before with values := before.values.truncate (before.values.height - count) }

/-- What has been taken was in the window, because it is counted from the base. -/
theorem Taken.keeps {count : Nat} {before after : Processor} (taken : Taken count before after) :
    Keeps before after := by
  obtain ⟨within, rfl⟩ := taken
  exact keeps_truncate before (Nat.le_sub_of_add_le within)

/-- What is taken in two parts is taken at once. A call takes its operands and then its callee. -/
theorem Taken.trans {first second : Nat} {before middle after : Processor}
    (left : Taken first before middle) (right : Taken second middle after) :
    Taken (first + second) before after := by
  obtain ⟨within, rfl⟩ := left
  obtain ⟨deeper, rfl⟩ := right
  have base : before.base = Processor.base { before with
    values := before.values.truncate (before.values.height - first) } := rfl
  simp only [BoundedStack.height_truncate, ← base] at deeper ⊢
  have lower :
      min (before.values.height - first) before.values.height = before.values.height - first :=
    Nat.min_eq_left (Nat.sub_le _ _)
  refine ⟨by omega, ?_⟩
  simp only [lower, BoundedStack.truncate_truncate, Nat.sub_sub]
  rw [Nat.min_eq_left (by omega)]

/-- A pop takes the top value of the window, or the window is empty and nothing changes: it never
reaches below the base. -/
theorem pop_ends (before : Processor) :
    pop.Ends before (fun _ after => Taken 1 before after)
      fun error after => after = before ∧ ∃ slot, error = .invalidStackAccess slot := by
  by_cases empty : before.values.height ≤ before.base
  · exact Attempt.ends_error (if_pos empty) ⟨rfl, _, rfl⟩
  · cases top : before.values.top? with
    | none =>
      have failed : pop before = (.error (.invalidStackAccess 0), before) := by
        simp only [pop, empty, if_false, top]
      exact Attempt.ends_error failed ⟨rfl, _, rfl⟩
    | some value =>
      have popped : pop before = (.ok value, { before with
          values := before.values.truncate (before.values.height - 1) }) := by
        simp only [pop, empty, if_false, top]
      exact Attempt.ends_ok popped ⟨by omega, rfl⟩

/-- So does the removal of several values, all of which have to be in the window. -/
theorem popMany_ends (count : Nat) (before : Processor) :
    (popMany count).Ends before (fun _ after => Taken count before after)
      fun error after => after = before ∧ ∃ slot, error = .invalidStackAccess slot := by
  by_cases short : before.values.height < before.base + count
  · exact Attempt.ends_error (if_pos short) ⟨rfl, _, rfl⟩
  · exact Attempt.ends_ok (if_neg short) ⟨Nat.le_of_not_lt short, rfl⟩

/-- A result takes its values from the top and nothing else. It can fail only because there are too
few. A result of no values is nil and takes nothing. -/
theorem popResult_ends (count : Nat) (before : Processor) :
    (popResult count).Ends before
      (fun _ after => after =
        { before with values := before.values.truncate (before.values.height - count) })
      fun error after => after = before ∧ ∃ slot, error = .invalidStackAccess slot := by
  unfold popResult
  split
  · exact Attempt.ends_pure (by simp)
  · exact (pop_ends before).mono (fun _ _ taken => taken.left) fun _ _ failed => failed
  · exact Attempt.ends_bind (popMany_ends _ before) fun _ _ taken => Attempt.ends_pure taken.left

/-- What takes values from the top of the window works inside it, and its only error says that a
value is missing. -/
theorem inWindow_of_taken {attempt : Attempt Processor α} {count : Nat}
    (takes : ∀ before, attempt.Ends before (fun _ after => Taken count before after)
      fun error after => after = before ∧ ∃ slot, error = .invalidStackAccess slot) :
    InWindow attempt := fun before =>
  (takes before).mono (fun _ _ taken => taken.keeps) fun _ _ failed => by
    obtain ⟨rfl, slot, rfl⟩ := failed
    exact ⟨Keeps.refl _, rfl⟩

/-- So is a pop, which does not go below the base. -/
theorem inWindow_pop : InWindow pop := inWindow_of_taken pop_ends

/-- So are several pops at once. -/
theorem inWindow_popMany (count : Nat) : InWindow (popMany count) :=
  inWindow_of_taken (popMany_ends count)

/-- A result is taken from the window whatever its number of values; no values at all need no
window. -/
theorem inWindow_popResult (count : Nat) : InWindow (popResult count) := by
  unfold popResult
  split
  · exact inWindow_pure _
  · exact inWindow_pop
  · exact inWindow_bind (inWindow_popMany _) fun _ => inWindow_pure _

/-- The two operands of an operator are popped one after the other. -/
theorem inWindow_popOperands : InWindow popOperands :=
  inWindow_bind inWindow_pop fun _ => inWindow_bind inWindow_pop fun _ => inWindow_pure _

/-- Looking up the top frame fails only for want of one. -/
theorem inWindow_currentFrame : InWindow currentFrame := by
  apply inWindow_check
  intro processor error missed
  split at missed
  · cases missed
  · cases missed
    rfl

/-- A local has a slot at or above the base. Where the slot is not on the stack this fails, and it
never names a slot of another frame. -/
theorem inWindow_localSlot (index : Nat) : InWindow (localSlot index) := by
  apply inWindow_check
  intro processor error missed
  dsimp only at missed
  split at missed
  · cases missed
  · cases missed
    rfl

/-- Looking at a local changes nothing. -/
theorem inWindow_loadLocal (index : Nat) : InWindow (loadLocal index) := by
  refine inWindow_bind (inWindow_localSlot index) fun slot => inWindow_check ?_
  intro processor error missed
  split at missed
  · cases missed
  · cases missed
    rfl

/-- The slot of a local lies in the window, so that writing there leaves what is below alone. This
is the one operation that changes a value in place, so it is compared value by value. -/
theorem inWindow_storeLocal (index : Nat) (value : Value) : InWindow (storeLocal index value) := by
  intro before
  refine Attempt.ends_bind_check ?_ ?_
  · intro slot found
    have inside : before.base ≤ slot := by
      dsimp only at found
      split at found
      · cases found
        exact Nat.le_add_right _ _
      · cases found
    by_cases present : slot < before.values.height
    · refine Attempt.ends_ok (if_pos present)
        ⟨⟨rfl, rfl, rfl, rfl, rfl, rfl, by simp, id⟩, rfl, by simp, fun _ => ?_⟩
      rw [BoundedStack.toList_set, List.take_set_of_le inside]
    · exact Attempt.ends_error (if_neg present) ⟨Keeps.refl before, rfl⟩
  · intro error missed
    dsimp only at missed
    split at missed
    · cases missed
    · cases missed
      exact ⟨Keeps.refl before, rfl⟩

/-- A captured variable is found through the scope of the top frame, and no value is touched. -/
theorem inWindow_upvalueCell (index : Nat) : InWindow (upvalueCell index) := by
  refine inWindow_bind inWindow_currentFrame fun frame => ?_
  split
  · exact inWindow_pure _
  · exact inWindow_fail rfl

/-! ### Arguments -/

/-- The number of arguments lies just below the base. It is only read there. -/
theorem inWindow_argumentCount (frame : Frame) : InWindow (argumentCount frame) := by
  apply inWindow_check
  intro processor error missed
  split at missed
  · cases missed
  · cases missed
    rfl

/-- Binding pushes one value for each parameter, by induction on their number, whether or not an
argument is left for it. -/
theorem onlyGrows_pushParameters (given : List Value) (parameters : Nat) :
    OnlyGrows (pushParameters given parameters) := by
  induction parameters generalizing given with
  | zero => exact onlyGrows_pure ()
  | succ parameters inductionHypothesis =>
    exact onlyGrows_bind (onlyGrows_push _) fun _ => inductionHypothesis _

/-- The block of arguments is read below the base and copied into the window. So reading is the only
use that code makes of slots below the base of its frame. -/
theorem inWindow_copyArguments (chunk : Chunk) : InWindow (copyArguments chunk) := by
  refine inWindow_bind inWindow_currentFrame fun frame => ?_
  split
  · exact inWindow_fail rfl
  · refine inWindow_bind (inWindow_argumentCount frame) fun count => ?_
    split
    · exact inWindow_fail rfl
    · refine inWindow_bind (inWindow_read _) fun given => ?_
      refine inWindow_bind (onlyGrows_pushParameters _ _).inWindow fun _ => ?_
      split
      · exact inWindow_push _
      · exact inWindow_pure _

end Processor

end CoroutineVM
