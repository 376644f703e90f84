import CoroutineVM.Proofs.Processor.Window

/-!
# Frames opened and dropped

A frame is opened on top of a callee, its arguments and their number, and it is dropped together
with all of them. `Opened` describes a processor after the first and `Framed` is what the second
relies on: the number of arguments can be read, and the slots that it speaks of are there.

A call from the host, a call instruction and a first resume open their frames through the same
operations, so that one description fits the three; they differ in where the callee comes from.
-/

namespace CoroutineVM.Processor

/-- A frame has been opened over a callee that lies on some values, with arguments of its own. -/
structure Opened (chunk : Chunk) (below : List Value) (callee : Value) (arguments : List Value)
    (frame : Frame) (before after : Processor) : Prop extends Aligned before after where
  values : after.values.toList = below ++ callee :: (arguments ++ [countValue arguments.length])
  frames : after.frames.toList = before.frames.toList ++ [frame]
  base : frame.base = after.values.height
  called : callee.collapse = .closure ⟨frame.function, frame.scope⟩
  entryPoint : chunk.entryPoint ⟨frame.function, frame.scope⟩ = .ok frame.entryPoint

/-- The top frame stands on the slots that its number of arguments speaks of. -/
structure Framed (processor : Processor) (frame : Frame) (count : Nat) : Prop where
  top : processor.frames.top? = some frame
  counted : (processor.values.get? frame.countSlot).bind countOf? = some count
  deep : count + 2 ≤ frame.base

/-- The slots that a frame stands on are there: the slot of the number of arguments has been read,
and it is the one just below the base. -/
theorem Framed.height {processor : Processor} {frame : Frame} {count : Nat}
    (framed : Framed processor frame count) : frame.base ≤ processor.values.height := by
  obtain ⟨value, found, _⟩ := Option.bind_eq_some_iff.mp framed.counted
  rw [BoundedStack.get?_eq] at found
  have present := (List.getElem?_eq_some_iff.mp found).1
  have deep := framed.deep
  rw [BoundedStack.length_toList, Frame.countSlot] at present
  omega

/-- The base of a processor is that of its top frame. -/
theorem base_of_top {processor : Processor} {frame : Frame}
    (top : processor.frames.top? = some frame) : processor.base = frame.base := by
  rw [base, top]

/-- Work inside the window does not disturb what a return relies on: the number of arguments lies
below the base. -/
theorem Framed.keeps {before after : Processor} {frame : Frame} {count : Nat}
    (framed : Framed before frame count) (keeps : Keeps before after) :
    Framed after frame count := by
  have base : before.base = frame.base := base_of_top framed.top
  have below := keeps.below (base ▸ framed.height)
  have slot : frame.countSlot < before.base := by
    have deep := framed.deep
    rw [Frame.countSlot, base]
    omega
  refine ⟨?_, ?_, framed.deep⟩
  · rw [keeps.frames]
    exact framed.top
  · rw [← framed.counted, BoundedStack.get?_eq, BoundedStack.get?_eq,
      ← List.getElem?_take_of_lt slot, below, List.getElem?_take_of_lt slot]

/-! ### Opening -/

/-- The lookup of a function may fail, which is then an error of the code itself and neither of a
guard nor of a coroutine. -/
theorem entryPoint_own {chunk : Chunk} {closure : Closure} {error : ScriptError}
    (missed : chunk.entryPoint closure = .error error) : error.isOwn = true := by
  rw [Chunk.entryPoint] at missed
  split at missed
  · cases missed
  · cases missed
    rfl

/-- A value is pushed, or there is no room and nothing changes. -/
theorem push_ends (value : Value) (before : Processor) :
    (push value).Ends before
      (fun _ after => Grows before after ∧
        after.values.toList = before.values.toList ++ [value])
      (fun error after => Grows before after ∧ error.isOwn = true) := by
  by_cases full : before.values.isFull = true
  · exact Attempt.ends_error (if_pos full) ⟨Grows.refl before, rfl⟩
  · have pushed : push value before =
        (.ok (), { before with values := before.values.append value }) := if_neg full
    exact Attempt.ends_ok pushed
      ⟨(onlyGrows_push value before).of_ok pushed, BoundedStack.toList_append _ _⟩

/-- Values pushed one by one lie on top in their order, by induction on them. When one of them finds
no room, those before it stay where they are. -/
theorem forEach_push_ends (values : List Value) (before : Processor) :
    (Attempt.forEach push values).Ends before
      (fun _ after => Grows before after ∧
        after.values.toList = before.values.toList ++ values)
      (fun error after => Grows before after ∧ error.isOwn = true) := by
  induction values generalizing before with
  | nil => exact Attempt.ends_pure ⟨Grows.refl before, by simp⟩
  | cons value rest inductionHypothesis =>
    refine Attempt.ends_bind (push_ends value before) ?_
    rintro _ middle ⟨grows, values⟩
    refine (inductionHypothesis middle).mono ?_ ?_
    · rintro _ after ⟨more, added⟩
      exact ⟨grows.trans more, by rw [added, values]; simp⟩
    · rintro error after ⟨more, own⟩
      exact ⟨grows.trans more, own⟩

/-- The arguments lie on top in their order, and above them their number. The number is that of the
values after tuples have been spread, so it is the number of slots. -/
theorem pushArguments_ends (arguments : List Value) (before : Processor) :
    (pushArguments arguments).Ends before
      (fun _ after => Grows before after ∧
        after.values.toList = before.values.toList ++
          (Value.spread arguments ++ [countValue (Value.spread arguments).length]))
      (fun error after => Grows before after ∧ error.isOwn = true) := by
  refine Attempt.ends_bind (forEach_push_ends _ before) ?_
  rintro _ middle ⟨grows, added⟩
  refine (push_ends _ middle).mono ?_ ?_
  · rintro _ after ⟨more, counted⟩
    exact ⟨grows.trans more, by rw [counted, added, List.append_assoc]⟩
  · rintro error after ⟨more, own⟩
    exact ⟨grows.trans more, own⟩

/-- A frame is opened over the callee and the arguments that lie on top. Its base is the height that
they have reached, and nothing is done to the values. -/
theorem pushFrame_ends {chunk : Chunk} {closure : Closure} {entryPoint : Nat}
    (returnPoint : ReturnPoint) {arguments : List Value} {before : Processor} {below : List Value}
    {callee : Value}
    (values : before.values.toList =
      below ++ callee :: (arguments ++ [countValue arguments.length]))
    (called : callee.collapse = .closure closure)
    (known : chunk.entryPoint closure = .ok entryPoint) :
    (pushFrame closure entryPoint returnPoint).Ends before
      (fun _ after => ∃ frame, Opened chunk below callee arguments frame before after ∧
        frame.returnPoint = returnPoint ∧ frame.entryPoint = entryPoint)
      (fun error after => Grows before after ∧ error.isOwn = true) := by
  by_cases full : before.frames.isFull = true
  · exact Attempt.ends_error (if_pos full) ⟨Grows.refl before, rfl⟩
  · refine Attempt.ends_ok (if_neg full)
      ⟨⟨before.values.height, returnPoint, closure.scope, entryPoint, closure.function⟩,
        ⟨⟨rfl, rfl, rfl, rfl, rfl, rfl, id, fun _ => ?_⟩, values, ?_, rfl, called, known⟩, rfl, rfl⟩
    · rw [BoundedStack.isFull_iff] at full
      simp only [BoundedStack.height_append, BoundedStack.capacity_append]
      omega
    · exact BoundedStack.toList_append _ _

/-- What was done to the values before a frame is opened belongs to its opening. -/
theorem Keeps.opened {chunk : Chunk} {below : List Value} {callee : Value} {arguments : List Value}
    {frame : Frame} {before middle after : Processor} (keeps : Keeps before middle)
    (opened : Opened chunk below callee arguments frame middle after) :
    Opened chunk below callee arguments frame before after where
  toAligned := keeps.toAligned.trans opened.toAligned
  values := opened.values
  frames := by rw [opened.frames, keeps.frames]
  base := opened.base
  called := opened.called
  entryPoint := opened.entryPoint

/-- The arguments and the frame that go on top of a callee. On failure the values that have been
pushed so far are left, and the processor has only grown. -/
theorem openFrame_ends {chunk : Chunk} {closure : Closure} {entryPoint : Nat}
    (returnPoint : ReturnPoint) (arguments : List Value) {before : Processor} {below : List Value}
    {callee : Value} (values : before.values.toList = below ++ [callee])
    (called : callee.collapse = .closure closure)
    (known : chunk.entryPoint closure = .ok entryPoint) :
    (do pushArguments arguments; pushFrame closure entryPoint returnPoint).Ends before
      (fun _ after => ∃ frame,
        Opened chunk below callee (Value.spread arguments) frame before after ∧
        frame.returnPoint = returnPoint ∧ frame.entryPoint = entryPoint)
      (fun error after => Grows before after ∧ error.isOwn = true) := by
  refine Attempt.ends_bind (pushArguments_ends arguments before) ?_
  rintro _ middle ⟨grows, added⟩
  have stacked : middle.values.toList = below ++
      callee :: (Value.spread arguments ++ [countValue (Value.spread arguments).length]) := by
    rw [added, values, List.append_assoc]
    rfl
  refine (pushFrame_ends returnPoint stacked called known).mono ?_ ?_
  · rintro _ after ⟨frame, opened, returns, enters⟩
    exact ⟨frame, grows.keeps.opened opened, returns, enters⟩
  · rintro error after ⟨more, own⟩
    exact ⟨grows.trans more, own⟩

/-- A closure is put on top of all values and gets a frame there. Only a call from the host and a
first resume do this; an instruction finds its callee on the stack. -/
theorem openClosure_ends {chunk : Chunk} {closure : Closure} {entryPoint : Nat}
    (returnPoint : ReturnPoint) (arguments : List Value) (before : Processor)
    (known : chunk.entryPoint closure = .ok entryPoint) :
    (do
      push (.closure closure)
      pushArguments arguments
      pushFrame closure entryPoint returnPoint).Ends before
      (fun _ after => ∃ frame, Opened chunk before.values.toList (.closure closure)
        (Value.spread arguments) frame before after ∧
        frame.returnPoint = returnPoint ∧ frame.entryPoint = entryPoint)
      (fun error after => Grows before after ∧ error.isOwn = true) := by
  refine Attempt.ends_bind (push_ends _ before) ?_
  rintro _ middle ⟨grows, pushed⟩
  refine (openFrame_ends returnPoint arguments pushed rfl known).mono ?_ ?_
  · rintro _ after ⟨frame, opened, returns, enters⟩
    exact ⟨frame, grows.keeps.opened opened, returns, enters⟩
  · rintro error after ⟨more, own⟩
    exact ⟨grows.trans more, own⟩

/-- What a call from the host finds on the stack below its arguments, and what it calls: a callee of
its own goes on top of all that is there, and without one the top value serves in its place. -/
def Calls (callee : Option Value) (before : Processor) (below : List Value) (called : Value) :
    Prop :=
  match callee with
  | some value => below = before.values.toList ∧ called = value.collapse
  | none => before.values.toList = below ++ [called]

/-- The height that a call goes back to when it ends. -/
def floorOfCall (callee : Option Value) (before : Processor) : Nat :=
  if callee.isSome then before.values.height else before.values.height - 1

/-- A closure that is called without a callee is the top value of the stack: an empty stack would
give nil, which is no closure. -/
theorem top_of_closure {before : Processor} {closure : Closure}
    (isClosure : (before.values.top?.getD .nil).collapse = .closure closure) :
    ∃ below, before.values.toList = below ++ [before.values.top?.getD .nil] := by
  cases top : before.values.top? with
  | none =>
    rw [top] at isClosure
    cases isClosure
  | some called =>
    rw [BoundedStack.top?_eq, List.getLast?_eq_some_iff] at top
    exact top

/-- A call from the host opens a frame that returns to the host, or it fails with nothing taken
away. The callee is the given one, put on top, or the top value as it lies there. -/
theorem enterFromHost_ends (chunk : Chunk) (callee : Option Value) (arguments : List Value)
    (before : Processor) :
    (enterFromHost chunk callee arguments).Ends before
      (fun pointer after => ∃ below called frame, Calls callee before below called ∧
        Opened chunk below called (Value.spread arguments) frame before after ∧
        frame.returnPoint = .host ∧ frame.entryPoint = pointer)
      (fun error after => Grows before after ∧ error.isOwn = true) := by
  refine Attempt.ends_bind_read ?_
  cases isClosure : (callee.getD (before.values.top?.getD .nil)).collapse
  case closure closure =>
    refine Attempt.ends_bind_check ?_ ?_
    · intro entryPoint known
      cases callee with
      | some callee =>
        have opens := (openClosure_ends .host arguments before known).returning entryPoint
        simp only [Attempt.bind_assoc] at opens
        refine opens.mono ?_ (fun _ _ failed => failed)
        rintro _ after ⟨rfl, _, frame, opened, returns, enters⟩
        exact ⟨_, _, frame, ⟨rfl, isClosure.symm⟩, opened, returns, enters⟩
      | none =>
        obtain ⟨below, values⟩ := top_of_closure isClosure
        have opens := (openFrame_ends .host arguments values isClosure known).returning entryPoint
        simp only [Attempt.bind_assoc] at opens
        refine opens.mono ?_ (fun _ _ failed => failed)
        rintro _ after ⟨rfl, _, frame, opened, returns, enters⟩
        exact ⟨below, _, frame, values, opened, returns, enters⟩
    · intro error missed
      exact ⟨Grows.refl before, entryPoint_own missed⟩
  all_goals exact Attempt.ends_fail ⟨Grows.refl before, rfl⟩

/-- The three ways in which a resume begins: it goes on at the saved place, or it starts the
function of the coroutine, or there is neither. -/
inductive ResumeEntry (chunk : Chunk) (arguments : List Value) (before : Processor) :
    Except ScriptError Nat → Processor → Prop where
  | continues {pointer : Nat} {after : Processor} (saved : before.savedPointer = some pointer)
      (grows : Grows { before with savedPointer := none } after)
      (values : after.values.toList =
        before.values.toList ++ [.pack (Value.spread arguments)]) :
      ResumeEntry chunk arguments before (.ok pointer) after
  | overflows {pointer : Nat} {error : ScriptError} {after : Processor}
      (saved : before.savedPointer = some pointer)
      (grows : Grows { before with savedPointer := none } after) (own : error.isOwn = true) :
      ResumeEntry chunk arguments before (.error error) after
  | starts {closure : Closure} {entered : Except ScriptError Nat} {after : Processor}
      (fresh : before.savedPointer = none) (entry : before.entry = some closure)
      (prepared : enterFromHost chunk (some (.closure closure)) arguments
        { before with entry := none } = (entered, after)) :
      ResumeEntry chunk arguments before entered after
  | spent (fresh : before.savedPointer = none) (entry : before.entry = none) :
      ResumeEntry chunk arguments before (.error .coroutineDead) before

/-- Every beginning of a resume is one of the three, read off its code: the saved place decides
first and the function of the coroutine next. -/
theorem resumeEntry_of_prepared {chunk : Chunk} {arguments : List Value} {before after : Processor}
    {entered : Except ScriptError Nat}
    (prepared : enterFromResume chunk arguments before = (entered, after)) :
    ResumeEntry chunk arguments before entered after := by
  rw [enterFromResume] at prepared
  split at prepared
  next pointer saved =>
    have ends := (push_ends (.pack (Value.spread arguments))
      { before with savedPointer := none }).returning pointer
    obtain ⟨_, rfl, rfl, _, grows, values⟩ | ⟨error, rfl, grows, own⟩ := ends.either prepared
    · exact .continues saved grows values
    · exact .overflows saved grows own
  next fresh =>
    split at prepared
    next closure entry => exact .starts fresh entry prepared
    next entry =>
      cases prepared
      exact .spent fresh entry

/-- The first resume of a coroutine prepares a call of its function. The function is used up by it,
so that it cannot be started again. -/
theorem enterFromResume_first {chunk : Chunk} {arguments : List Value} {processor : Processor}
    {closure : Closure} (fresh : processor.savedPointer = none)
    (entry : processor.entry = some closure) :
    enterFromResume chunk arguments processor =
      enterFromHost chunk (some (.closure closure)) arguments { processor with entry := none } := by
  rw [enterFromResume, fresh]
  simp only [entry]

/-! ### Dropping -/

/-- A return drops the frame with its locals, its arguments and its callee: everything from two
slots below the arguments up. -/
theorem popFrame_eq {before : Processor} {frame : Frame} {count : Nat}
    (framed : Framed before frame count) :
    popFrame before = (.ok frame, { before with
      frames := before.frames.truncate (before.frames.height - 1)
      values := before.values.truncate (frame.base - (count + 2)) }) := by
  have deep : ¬ frame.base < count + 2 := Nat.not_lt.mpr framed.deep
  simp [popFrame, currentFrame, argumentCount, Attempt.check, Attempt.modify, framed.top,
    framed.counted, deep, bind, Attempt.andThen, pure, Attempt.succeed]

/-- The top frame has been dropped with all that its callee and arguments take, and some values have
been pushed in their place. -/
structure Dropped (frame : Frame) (count : Nat) (results : List Value) (before after : Processor) :
    Prop extends Aligned before after where
  values : after.values.toList = before.values.toList.take (frame.base - (count + 2)) ++ results
  frames : after.frames.toList = before.frames.toList.dropLast

/-- The top frame is gone, and so may be some values. When all values have fitted their stack, this
is because the frame has not found its arguments. -/
structure Lost (before after : Processor) : Prop extends Aligned before after where
  frames : after.frames.toList = before.frames.toList.dropLast
  astray : before.values.height ≤ before.values.capacity →
    ∀ frame count, ¬ Framed before frame count

/-- Dropping frames and values leaves the rest of a processor as it is, and what has fitted fits. -/
theorem aligned_truncate (before : Processor) (frameHeight valueHeight : Nat) :
    Aligned before { before with
      frames := before.frames.truncate frameHeight
      values := before.values.truncate valueHeight } := by
  refine ⟨rfl, rfl, rfl, rfl, rfl, rfl, ?_, ?_⟩
  · intro fits
    simp only [BoundedStack.height_truncate, BoundedStack.capacity_truncate]
    omega
  · intro fits
    simp only [BoundedStack.height_truncate, BoundedStack.capacity_truncate]
    omega

/-- A frame that finds its arguments is dropped with all that it takes up. Otherwise it is gone,
too: the source takes the frame off before it reads the number of arguments. -/
theorem popFrame_ends (before : Processor) :
    popFrame.Ends before
      (fun frame after => ∃ count, Framed before frame count ∧ Dropped frame count [] before after)
      (fun error after => Lost before after ∧ error.isOwn = true) := by
  by_cases found : ∃ frame count, Framed before frame count
  · obtain ⟨frame, count, framed⟩ := found
    refine Attempt.ends_ok (popFrame_eq framed) ⟨count, framed, aligned_truncate before _ _, ?_, ?_⟩
    · simp
    · simp [List.dropLast_eq_take]
  · have astray : ∀ frame count, ¬ Framed before frame count :=
      fun frame count framed => found ⟨frame, count, framed⟩
    have lost : ∀ frames : BoundedStack Frame, frames = before.frames.truncate
        (before.frames.height - 1) → Lost before { before with frames := frames } := by
      rintro _ rfl
      refine ⟨⟨rfl, rfl, rfl, rfl, rfl, rfl, id, ?_⟩, ?_, fun _ => astray⟩
      · exact (aligned_truncate before _ 0).frameRoom
      · simp [List.dropLast_eq_take]
    refine Attempt.ends_bind_check ?_ ?_
    · intro frame isTop
      refine Attempt.ends_bind_ok rfl (Attempt.ends_bind_check ?_ ?_)
      · intro count counts
        split
        · exact Attempt.ends_fail ⟨lost _ rfl, rfl⟩
        next deep =>
          refine absurd ⟨?_, ?_, Nat.le_of_not_lt deep⟩ (astray frame count)
          · split at isTop
            · cases isTop
              assumption
            · cases isTop
          · split at counts
            · cases counts
              assumption
            · cases counts
      · intro error missed
        refine ⟨lost _ rfl, ?_⟩
        split at missed <;> cases missed
        rfl
    · intro error missed
      split at missed
      · cases missed
      next none =>
        cases missed
        refine ⟨⟨.refl before, ?_, fun _ => astray⟩, rfl⟩
        rw [BoundedStack.top?_eq, List.getLast?_eq_none_iff] at none
        rw [none]
        rfl

/-- A frame takes up two slots besides those of its arguments, so that there is room for its result.
It can be missing only where the stack was above its capacity before. -/
theorem push_dropped {frame : Frame} {count : Nat} {before middle : Processor}
    (framed : Framed before frame count) (dropped : Dropped frame count [] before middle)
    (value : Value) :
    (push value).Ends middle (fun _ after => Dropped frame count [value] before after)
      (fun error after => Lost before after ∧ error.isOwn = true) := by
  by_cases full : middle.values.isFull = true
  · refine Attempt.ends_error (if_pos full)
      ⟨⟨dropped.toAligned, dropped.frames, fun fits _ _ _ => ?_⟩, rfl⟩
    have deep := framed.deep
    have height := framed.height
    have lower := congrArg List.length dropped.values
    simp only [BoundedStack.length_toList, List.append_nil, List.length_take] at lower
    rw [BoundedStack.isFull_iff, dropped.valueCapacity] at full
    omega
  · have pushed : push value middle =
        (.ok (), { middle with values := middle.values.append value }) := if_neg full
    obtain ⟨grows, values⟩ := (push_ends value middle).of_ok pushed
    refine Attempt.ends_ok pushed ⟨dropped.toAligned.trans grows.toAligned, ?_, ?_⟩
    · rw [values, dropped.values, List.append_nil]
    · rw [grows.frames, dropped.frames]

end CoroutineVM.Processor
