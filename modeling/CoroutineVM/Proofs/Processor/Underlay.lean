import CoroutineVM.Proofs.Processor.Frames

/-!
# What lies below does not matter

Both stacks of a processor may have been begun by someone else. An `Underlay` is what could lie at
their bottoms, and `Processor.rebase` puts it there in the place of as many items as it has. The
operations that code consists of do the same after that as before: they look at the values of their
own frame, and the one look below its base is at the arguments, whose number lies there as well.

`Above` says that the top frame has its arguments above the underlay, and `Upon` says only that the
stacks reach up to it. Work in a window needs the first, and putting something on top needs the
second.
-/

namespace CoroutineVM

namespace BoundedStack

variable {α : Type} {below : List α} {stack : BoundedStack α}

/-- The stack with these items at its bottom, in the place of as many of its own. -/
def rebase (below : List α) (stack : BoundedStack α) : BoundedStack α :=
  { stack with items := (below ++ stack.toList.drop below.length).toArray }

/-- What is put at the bottom takes the place of as many items as it has, so that heights stay what
they are and only contents change. -/
@[simp]
theorem toList_rebase (below : List α) (stack : BoundedStack α) :
    (stack.rebase below).toList = below ++ stack.toList.drop below.length := rfl

/-- The capacity of a stack is not changed by what lies at its bottom. -/
@[simp]
theorem capacity_rebase (below : List α) (stack : BoundedStack α) :
    (stack.rebase below).capacity = stack.capacity := rfl

/-- Two stacks are equal when they have the same list and the same capacity: equations between
stacks are proved on lists. -/
theorem ext_toList {first second : BoundedStack α} (items : first.toList = second.toList)
    (capacity : first.capacity = second.capacity) : first = second := by
  obtain ⟨firstItems, firstCapacity⟩ := first
  obtain ⟨secondItems, secondCapacity⟩ := second
  obtain rfl : firstItems = secondItems := Array.toList_inj.mp items
  obtain rfl : firstCapacity = secondCapacity := capacity
  rfl

/-- The height does not change as long as the stack reaches up to what is put under it. -/
theorem height_rebase (inside : below.length ≤ stack.height) :
    (stack.rebase below).height = stack.height := by
  rw [← length_toList, toList_rebase, List.length_append, List.length_drop, length_toList]
  omega

/-- So a stack is full with another bottom exactly when it is full with its own. -/
theorem isFull_rebase (inside : below.length ≤ stack.height) :
    (stack.rebase below).isFull = stack.isFull := by
  rw [isFull, isFull, height_rebase inside, capacity_rebase]

/-- Putting on top and exchanging the bottom do not meet, so that their order does not matter. -/
theorem rebase_append (inside : below.length ≤ stack.height) (item : α) :
    (stack.append item).rebase below = (stack.rebase below).append item := by
  refine ext_toList ?_ rfl
  rw [toList_rebase, toList_append, toList_append, toList_rebase,
    List.drop_append_of_le_length (by simpa using inside), List.append_assoc]

/-- Taking items away down to a height above the bottom can be done before or after it is
replaced. -/
theorem rebase_truncate {height : Nat} (above : below.length ≤ height) :
    (stack.truncate height).rebase below = (stack.rebase below).truncate height := by
  refine ext_toList ?_ rfl
  rw [toList_rebase, toList_truncate, toList_truncate, toList_rebase, List.drop_take,
    List.take_append, List.take_of_length_le above]

/-- The same of writing above the bottom. -/
theorem rebase_set {index : Nat} (above : below.length ≤ index) (item : α) :
    (stack.set index item).rebase below = (stack.rebase below).set index item := by
  refine ext_toList ?_ rfl
  rw [toList_rebase, toList_set, toList_set, toList_rebase, List.drop_set,
    if_neg (Nat.not_lt.mpr above), List.set_append_right _ _ above]

/-- A slot above the bottom has the value that it had. -/
theorem get?_rebase {index : Nat} (above : below.length ≤ index) :
    (stack.rebase below).get? index = stack.get? index := by
  rw [get?_eq, get?_eq, toList_rebase, List.getElem?_append_right above, List.getElem?_drop]
  congr 1
  omega

/-- The top is above the bottom as soon as the stack is higher than it. The inequality is strict: of
a stack that is all bottom the top is exchanged, too. -/
theorem top?_rebase (inside : below.length < stack.height) :
    (stack.rebase below).top? = stack.top? := by
  have last : (stack.toList.drop below.length).getLast? = stack.toList.getLast? := by
    rw [List.getLast?_drop, if_neg (by simpa using inside)]
  have present : stack.toList ≠ [] := by
    rintro nothing
    rw [← length_toList, nothing] at inside
    exact Nat.not_lt_zero _ inside
  rw [top?_eq, top?_eq, toList_rebase, List.getLast?_append, last,
    List.getLast?_eq_some_getLast present, Option.some_or]

/-- What lies above the bottom is taken out as it is. -/
theorem extract_rebase {first last : Nat} (above : below.length ≤ first) :
    ((stack.rebase below).items.extract first last).toList =
      (stack.items.extract first last).toList := by
  have items : ∀ other : BoundedStack α, (other.items.extract first last).toList =
      (other.toList.drop first).take (last - first) := by
    intro other
    rw [Array.toList_extract, List.extract_eq_take_drop]
    rfl
  rw [items, items, toList_rebase, List.drop_append, List.drop_eq_nil_of_le above, List.nil_append,
    List.drop_drop, Nat.add_sub_cancel' above]

/-- Items on top are the same if all of them lie above the bottom. -/
theorem topItems_rebase {count : Nat} (inside : below.length + count ≤ stack.height) :
    (stack.rebase below).topItems count = stack.topItems count := by
  rw [topItems, topItems, height_rebase (by omega)]
  exact extract_rebase (by omega)

end BoundedStack

/-- What may lie at the bottom of both stacks of a processor. -/
structure Underlay where
  values : List Value
  frames : List Frame

namespace Processor

variable {underlay : Underlay} {processor before after : Processor} {α β : Type}

/-- The processor with this at the bottom of its stacks. -/
def rebase (underlay : Underlay) (processor : Processor) : Processor :=
  { processor with
    values := processor.values.rebase underlay.values
    frames := processor.frames.rebase underlay.frames }

/-- The stacks are at least as high as what lies at their bottom. -/
structure Upon (underlay : Underlay) (processor : Processor) : Prop where
  values : underlay.values.length ≤ processor.values.height
  frames : underlay.frames.length ≤ processor.frames.height

/-- The top frame, its arguments and its callee lie above the bottom. -/
structure Above (underlay : Underlay) (processor : Processor) : Prop where
  frames : underlay.frames.length < processor.frames.height
  framed : ∃ frame count, Framed processor frame count ∧
    underlay.values.length + (count + 2) ≤ frame.base

/-- The base lies between the bottom and the top of the stack: the window is above what is
exchanged. -/
theorem Above.base (above : Above underlay processor) :
    underlay.values.length ≤ processor.base ∧ processor.base ≤ processor.values.height := by
  obtain ⟨frame, count, framed, deep⟩ := above.framed
  rw [base_of_top framed.top]
  exact ⟨by omega, framed.height⟩

/-- Where the top frame is above the bottom, the stacks reach up to it. -/
theorem Above.upon (above : Above underlay processor) : Upon underlay processor :=
  ⟨Nat.le_trans above.base.1 above.base.2, Nat.le_of_lt above.frames⟩

/-- Work in the window leaves the frame, its arguments and its callee above the bottom. -/
theorem Above.keeps (above : Above underlay before) (keeps : Keeps before after) :
    Above underlay after := by
  obtain ⟨frame, count, framed, deep⟩ := above.framed
  exact ⟨keeps.frames ▸ above.frames, frame, count, framed.keeps keeps, deep⟩

/-- Adding values leaves the stacks as high as the bottom. -/
theorem Upon.grows (upon : Upon underlay before) (grows : Grows before after) :
    Upon underlay after :=
  ⟨Nat.le_trans upon.values grows.height, grows.frames ▸ upon.frames⟩

/-- The base is that of the top frame, which is not exchanged. -/
theorem base_rebase (inside : underlay.frames.length < processor.frames.height) :
    (processor.rebase underlay).base = processor.base := by
  rw [base, base, rebase, BoundedStack.top?_rebase inside]

/-- A cut of the values above the bottom can be made before or after the exchange. -/
theorem rebase_truncate {height : Nat} (above : underlay.values.length ≤ height) :
    rebase underlay { processor with values := processor.values.truncate height } =
      { processor.rebase underlay with
        values := (processor.rebase underlay).values.truncate height } := by
  simp only [rebase, BoundedStack.rebase_truncate above]

/-! ### Operations -/

open Attempt

/-- What the operation does and comes to is the same whatever lies at the bottom. -/
structure Indifferent (underlay : Underlay) (attempt : Attempt Processor α) : Prop where
  window : InWindow attempt
  commutes : ∀ processor, Above underlay processor → Commutes (rebase underlay) attempt processor

/-- Doing nothing is the same over every bottom. -/
theorem indifferent_pure (result : α) :
    Indifferent underlay (pure result : Attempt Processor α) :=
  ⟨inWindow_pure result, fun _ _ => commutes_pure result⟩

/-- So is failing. -/
theorem indifferent_fail {error : ScriptError} (own : error.isOwn = true) :
    Indifferent underlay (Attempt.fail error : Attempt Processor α) :=
  ⟨inWindow_fail own, fun _ _ => commutes_fail error⟩

/-- Work in the window does not lead below it, so that parts that do not mind what lies there make
up a whole that does not. -/
theorem indifferent_bind {first : Attempt Processor β} {second : β → Attempt Processor α}
    (left : Indifferent underlay first) (right : ∀ result, Indifferent underlay (second result)) :
    Indifferent underlay (first >>= second) :=
  ⟨inWindow_bind left.window fun result => (right result).window, fun processor above =>
    commutes_bind (left.commutes processor above) fun result next reached =>
      (right result).commutes next (above.keeps ((left.window processor).of_ok reached))⟩

/-- A push looks at nothing but whether the stack is full. It needs only that the stack reaches up
to the bottom, and not that a frame is above it: a callee may be pushed where no frame is. -/
theorem commutes_push (value : Value) (upon : Upon underlay processor) :
    Commutes (rebase underlay) (push value) processor := by
  have full := BoundedStack.isFull_rebase upon.values
  by_cases isFull : processor.values.isFull = true
  · simp [Commutes, push, rebase, full, isFull]
  · simp [Commutes, push, rebase, full, isFull, BoundedStack.rebase_append upon.values]

/-- In a window, where more is known, a push is one of the operations that do not mind the
bottom. -/
theorem indifferent_push (value : Value) : Indifferent underlay (push value) :=
  ⟨inWindow_push value, fun _ above => commutes_push value above.upon⟩

/-- The values that are popped lie above the base, hence above the bottom. -/
theorem indifferent_popMany (count : Nat) : Indifferent underlay (popMany count) := by
  refine ⟨inWindow_popMany count, fun processor above => ?_⟩
  have height : (processor.rebase underlay).values.height = processor.values.height :=
    BoundedStack.height_rebase above.upon.values
  have base := base_rebase above.frames
  have lower := above.base.1
  by_cases short : processor.values.height < processor.base + count
  · simp [Commutes, popMany, height, base, short]
  · have items : (processor.rebase underlay).values.topItems count =
        processor.values.topItems count := BoundedStack.topItems_rebase (by omega)
    simp [Commutes, popMany, height, base, short, items, rebase_truncate
      (show underlay.values.length ≤ processor.values.height - count by omega)]

/-- A single value is no different. -/
theorem indifferent_pop : Indifferent underlay pop := by
  refine ⟨inWindow_pop, fun processor above => ?_⟩
  have height : (processor.rebase underlay).values.height = processor.values.height :=
    BoundedStack.height_rebase above.upon.values
  have base := base_rebase above.frames
  have lower := above.base.1
  by_cases empty : processor.values.height ≤ processor.base
  · simp [Commutes, pop, height, base, empty]
  · have top : (processor.rebase underlay).values.top? = processor.values.top? :=
      BoundedStack.top?_rebase (by omega)
    cases found : processor.values.top? with
    | none => simp [Commutes, pop, height, base, empty, top, found]
    | some value =>
      simp [Commutes, pop, height, base, empty, top, found, rebase_truncate
        (show underlay.values.length ≤ processor.values.height - 1 by omega)]

/-- A result is popped, or there is nothing to pop and nothing is looked at. -/
theorem indifferent_popResult (count : Nat) : Indifferent underlay (popResult count) := by
  unfold popResult
  split
  · exact indifferent_pure _
  · exact indifferent_pop
  · exact indifferent_bind (indifferent_popMany _) fun _ => indifferent_pure _

/-- Two pops, of which the second one starts in the same window. -/
theorem indifferent_popOperands : Indifferent underlay popOperands :=
  indifferent_bind indifferent_pop fun _ => indifferent_bind indifferent_pop fun _ =>
    indifferent_pure _

/-- The top frame is looked up on the other stack, for which it is enough that one frame is above
the bottom. -/
theorem commutes_currentFrame (inside : underlay.frames.length < processor.frames.height) :
    Commutes (rebase underlay) currentFrame processor := by
  refine commutes_check ?_
  rw [rebase, BoundedStack.top?_rebase inside]

/-- In a window there is such a frame. -/
theorem indifferent_currentFrame : Indifferent underlay currentFrame :=
  ⟨inWindow_currentFrame, fun _ above => commutes_currentFrame above.frames⟩

/-- The slot of a local is counted from the base, and whether it exists depends on the height: both
stay what they are. -/
theorem indifferent_localSlot (index : Nat) : Indifferent underlay (localSlot index) := by
  refine ⟨inWindow_localSlot index, fun processor above => commutes_check ?_⟩
  rw [base_rebase above.frames]

/-- The slot that is found is not below the base, and finding it has changed nothing. -/
theorem slot_of_localSlot {index slot : Nat}
    (reached : localSlot index before = (.ok slot, after)) :
    after = before ∧ before.base ≤ slot := by
  rw [localSlot, Attempt.check] at reached
  dsimp only at reached
  split at reached
  · cases reached
    exact ⟨rfl, Nat.le_add_right _ _⟩
  · cases reached

/-- A local lies above the base and has the value that it had. -/
theorem indifferent_loadLocal (index : Nat) : Indifferent underlay (loadLocal index) := by
  refine ⟨inWindow_loadLocal index, fun processor above => ?_⟩
  refine commutes_bind ((indifferent_localSlot index).commutes processor above) ?_
  intro slot next reached
  obtain ⟨rfl, inside⟩ := slot_of_localSlot reached
  refine commutes_check ?_
  rw [rebase, BoundedStack.get?_rebase (Nat.le_trans above.base.1 inside)]

/-- Writing to a local leaves the bottom alone, and the exchange leaves the local alone. -/
theorem indifferent_storeLocal (index : Nat) (value : Value) :
    Indifferent underlay (storeLocal index value) := by
  refine ⟨inWindow_storeLocal index value, fun processor above => ?_⟩
  refine commutes_bind ((indifferent_localSlot index).commutes processor above) ?_
  intro slot next reached
  obtain ⟨rfl, inside⟩ := slot_of_localSlot reached
  have height := BoundedStack.height_rebase above.upon.values
  by_cases present : slot < next.values.height
  · simp [Commutes, rebase, height, present,
      BoundedStack.rebase_set (Nat.le_trans above.base.1 inside)]
  · simp [Commutes, rebase, height, present]

/-- Captured variables are not on the stacks at all; only the frame that names their scope is. -/
theorem indifferent_upvalueCell (index : Nat) : Indifferent underlay (upvalueCell index) := by
  refine indifferent_bind indifferent_currentFrame fun frame => ?_
  split
  · exact indifferent_pure _
  · exact indifferent_fail rfl

/-! ### Arguments -/

/-- The number of a frame's arguments lies in the slot below its base, which has to be above the
bottom. -/
theorem commutes_argumentCount {frame : Frame} (above : underlay.values.length ≤ frame.countSlot) :
    Commutes (rebase underlay) (argumentCount frame) processor := by
  refine commutes_check ?_
  rw [rebase, BoundedStack.get?_rebase above]

/-- By induction on the parameters, each of which is bound by one push. -/
theorem indifferent_pushParameters (given : List Value) (parameters : Nat) :
    Indifferent underlay (pushParameters given parameters) := by
  induction parameters generalizing given with
  | zero => exact indifferent_pure ()
  | succ parameters inductionHypothesis =>
    exact indifferent_bind (indifferent_push _) fun _ => inductionHypothesis _

/-- The frame that is looked up is the top one, and looking has changed nothing. -/
theorem frame_of_currentFrame {frame : Frame} (reached : currentFrame before = (.ok frame, after)) :
    after = before ∧ before.frames.top? = some frame := by
  rw [currentFrame, Attempt.check] at reached
  split at reached
  next top =>
    cases reached
    exact ⟨rfl, top⟩
  next => cases reached

/-- The number that is read is the one in the slot below the base. Together with the last lemma this
identifies the frame and the number that `Above` speaks of. -/
theorem count_of_argumentCount {frame : Frame} {count : Nat}
    (reached : argumentCount frame before = (.ok count, after)) :
    after = before ∧ (before.values.get? frame.countSlot).bind countOf? = some count := by
  rw [argumentCount, Attempt.check] at reached
  split at reached
  next counted =>
    cases reached
    exact ⟨rfl, counted⟩
  next => cases reached

/-- The arguments are looked for below the base of the frame, in as many slots as their number says.
They are all above the bottom. -/
theorem indifferent_copyArguments (chunk : Chunk) :
    Indifferent underlay (copyArguments chunk) := by
  refine ⟨inWindow_copyArguments chunk, fun processor above => ?_⟩
  refine commutes_bind (commutes_currentFrame above.frames) ?_
  intro frame next reached
  obtain ⟨rfl, top⟩ := frame_of_currentFrame reached
  split
  · exact commutes_fail _
  · obtain ⟨own, count, framed, deep⟩ := above.framed
    obtain rfl : own = frame := Option.some.inj (framed.top.symm.trans top)
    have slot : own.countSlot = own.base - 1 := rfl
    refine commutes_bind (commutes_argumentCount (by omega)) ?_
    intro found next reached
    obtain ⟨rfl, counted⟩ := count_of_argumentCount reached
    obtain rfl : count = found := Option.some.inj (framed.counted.symm.trans counted)
    split
    · exact commutes_fail _
    · refine commutes_bind (commutes_read (BoundedStack.extract_rebase (by omega))) ?_
      intro given next reached
      cases reached
      refine (indifferent_bind (indifferent_pushParameters _ _) fun _ => ?_).commutes _ above
      split
      · exact indifferent_push _
      · exact indifferent_pure _

/-! ### Frames -/

/-- By induction on the values: each push leaves the stack as high as the bottom for the next
one. -/
theorem commutes_forEach_push (values : List Value) (upon : Upon underlay processor) :
    Commutes (rebase underlay) (Attempt.forEach push values) processor := by
  induction values generalizing processor with
  | nil => exact commutes_pure ()
  | cons value rest inductionHypothesis =>
    refine commutes_bind (commutes_push value upon) fun _ next reached => ?_
    exact inductionHypothesis (upon.grows ((onlyGrows_push value processor).of_ok reached))

/-- The arguments and their number are pushes. -/
theorem commutes_pushArguments (arguments : List Value) (upon : Upon underlay processor) :
    Commutes (rebase underlay) (pushArguments arguments) processor := by
  refine commutes_bind (commutes_forEach_push _ upon) fun _ next reached => ?_
  exact commutes_push _ (upon.grows ((forEach_push_ends _ processor).of_ok reached).1)

/-- The base of the new frame is the height of the values, which stays what it is. -/
theorem commutes_pushFrame (closure : Closure) (entryPoint : Nat) (returnPoint : ReturnPoint)
    (upon : Upon underlay processor) :
    Commutes (rebase underlay) (pushFrame closure entryPoint returnPoint) processor := by
  have full := BoundedStack.isFull_rebase upon.frames
  have height := BoundedStack.height_rebase upon.values
  by_cases isFull : processor.frames.isFull = true
  · simp [Commutes, pushFrame, rebase, full, isFull]
  · simp [Commutes, pushFrame, rebase, full, isFull, height,
      BoundedStack.rebase_append upon.frames]

/-- The arguments of a call and its frame go on top of whatever is there. -/
theorem commutes_openFrame (closure : Closure) (arguments : List Value) (entryPoint : Nat)
    (returnPoint : ReturnPoint) (upon : Upon underlay processor) :
    Commutes (rebase underlay)
      (do pushArguments arguments; pushFrame closure entryPoint returnPoint) processor :=
  commutes_bind (commutes_pushArguments arguments upon) fun _ _ reached =>
    commutes_pushFrame closure entryPoint returnPoint
      (upon.grows ((pushArguments_ends arguments processor).of_ok reached).1)

/-- A closure that the host brings goes on top as well, before its arguments. -/
theorem commutes_openClosure (closure : Closure) (arguments : List Value) (entryPoint : Nat)
    (returnPoint : ReturnPoint) (upon : Upon underlay processor) :
    Commutes (rebase underlay) (do
      push (.closure closure)
      pushArguments arguments
      pushFrame closure entryPoint returnPoint) processor :=
  commutes_bind (commutes_push _ upon) fun _ _ reached =>
    commutes_openFrame closure arguments entryPoint returnPoint
      (upon.grows ((onlyGrows_push _ processor).of_ok reached))

/-- A call from the host that brings its callee looks at nothing on the stacks. One that does not
would look at the top value, and this could be the bottom's. -/
theorem commutes_enterFromHost (chunk : Chunk) (callee : Value) (arguments : List Value)
    (upon : Upon underlay processor) :
    Commutes (rebase underlay) (enterFromHost chunk (some callee) arguments) processor := by
  refine commutes_bind (commutes_read rfl) ?_
  intro called next reached
  cases reached
  split
  next closure _ =>
    refine commutes_bind (commutes_check rfl) ?_
    intro entryPoint next reached
    obtain rfl : processor = next := congrArg Prod.snd reached
    have opens := commutes_bind
      (commutes_openClosure closure arguments entryPoint .host upon)
      fun _ _ _ => commutes_pure entryPoint
    simp only [Attempt.bind_assoc] at opens
    exact opens
  next => exact commutes_fail _

/-- A return finds the number of its arguments above the bottom, and it drops nothing that lies
there. -/
theorem commutes_popFrame (above : Above underlay processor) :
    Commutes (rebase underlay) popFrame processor := by
  obtain ⟨frame, count, framed, deep⟩ := above.framed
  have slot : frame.countSlot = frame.base - 1 := rfl
  have lower : Framed (processor.rebase underlay) frame count := by
    refine ⟨?_, ?_, framed.deep⟩
    · rw [rebase, BoundedStack.top?_rebase above.frames]
      exact framed.top
    · rw [rebase, BoundedStack.get?_rebase (by omega)]
      exact framed.counted
  have height : (processor.rebase underlay).frames.height = processor.frames.height :=
    BoundedStack.height_rebase (Nat.le_of_lt above.frames)
  have inside := above.frames
  rw [Commutes, popFrame_eq framed, popFrame_eq lower, height]
  simp only [rebase, BoundedStack.rebase_truncate (show underlay.frames.length ≤
    processor.frames.height - 1 by omega),
      BoundedStack.rebase_truncate (show underlay.values.length ≤
    frame.base - (count + 2) by omega)]

/-- After a return the stacks still reach up to the bottom: the callee was above it, and what has
been dropped was the callee and what lies on it. -/
theorem Above.popped {frame : Frame} (above : Above underlay before)
    (popped : popFrame before = (.ok frame, after)) : Upon underlay after := by
  obtain ⟨own, count, framed, deep⟩ := above.framed
  rw [popFrame_eq framed] at popped
  cases popped
  have inside := above.frames
  have height := framed.height
  refine ⟨?_, ?_⟩
  · rw [BoundedStack.height_truncate]
    omega
  · rw [BoundedStack.height_truncate]
    omega

end Processor

end CoroutineVM
