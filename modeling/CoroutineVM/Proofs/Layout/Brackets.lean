import CoroutineVM.Proofs.Layout.Dispatch

/-!
# Calls and returns

A call instruction puts a frame on the two stacks of its coroutine, and while that frame is there
nobody touches what lies below the window of the frame: not the code of frames on top of it, not
calls by the host, and nobody while the coroutine is suspended. The return that drops the frame
therefore finds both stacks as the call has left them, and it leaves a single value in the place of
the callee and the arguments.

Nothing is assumed of what happens in between but that the frame stays. Whether it does is read off
the height of the frame stack, since frames are only ever put on top and taken from there.
-/

namespace CoroutineVM

open Processor

variable {rules : Rules} {id : CoroutineId}

namespace Processor

/-- Both stacks begin with what they were at the start. -/
structure Atop (start processor : Processor) : Prop where
  values : start.values.toList <+: processor.values.toList
  frames : start.frames.toList <+: processor.frames.toList

/-- A frame has just been opened, and there is nothing in its window. -/
structure Opening (processor : Processor) : Prop where
  base : processor.base = processor.values.height
  framed : processor.frames.toList ≠ []

variable {start before after : Processor}

/-- A processor is on top of itself. -/
theorem Atop.refl (start : Processor) : Atop start start := ⟨List.prefix_rfl, List.prefix_rfl⟩

/-- Whatever else changes of a processor, it is its two stacks that matter. -/
theorem Atop.congr (atop : Atop start before) (values : after.values = before.values)
    (frames : after.frames = before.frames) : Atop start after :=
  ⟨values ▸ atop.values, frames ▸ atop.frames⟩

/-- What lies above a height may change if that is not below what there was at the start. -/
theorem Atop.of_take (atop : Atop start before) (height : Nat)
    (above : start.values.height ≤ height)
    (same : after.values.toList.take height = before.values.toList.take height)
    (frames : start.frames.toList <+: after.frames.toList) : Atop start after := by
  have inside : start.values.toList <+: before.values.toList.take height :=
    List.prefix_take_iff.mpr ⟨atop.values, above⟩
  rw [← same] at inside
  exact ⟨inside.trans (List.take_prefix _ _), frames⟩

/-- What is pushed comes on top of everything. -/
theorem Atop.grows (atop : Atop start before) (grows : Grows before after) : Atop start after :=
  atop.of_take _ atop.values.length_le (grows.take (Nat.le_refl _)) (grows.frames ▸ atop.frames)

/-- Work above the base leaves in place what lies below it, provided that all of what is to be kept
does. -/
theorem Atop.keeps (atop : Atop start before) (above : start.values.height ≤ before.base)
    (fits : before.base ≤ before.values.height) (keeps : Keeps before after) : Atop start after :=
  atop.of_take _ above (keeps.below fits) (keeps.frames ▸ atop.frames)

/-- A frame that is opened comes on top, with its callee and its arguments. -/
theorem Atop.opened {chunk : Chunk} {callee : Value} {arguments : List Value} {frame : Frame}
    (atop : Atop start before)
    (opened : Opened chunk before.values.toList callee arguments frame before after) :
    Atop start after := by
  refine ⟨?_, ?_⟩
  · rw [opened.values]
    exact atop.values.trans (List.prefix_append _ _)
  · rw [opened.frames]
    exact atop.frames.trans (List.prefix_append _ _)

/-- A call from the host that brings its callee goes on top of everything. -/
theorem Atop.enters {chunk : Chunk} {callee : Value} {arguments : List Value}
    {entered : Except ScriptError Nat} (atop : Atop start before)
    (prepared : enterFromHost chunk (some callee) arguments before = (entered, after)) :
    Atop start after := by
  obtain ⟨pointer, _, below, called, frame, ⟨rfl, _⟩, opened, _⟩ | ⟨error, _, grows, _⟩ :=
    (enterFromHost_ends chunk (some callee) arguments before).either prepared
  · exact atop.opened opened
  · exact atop.grows grows

/-- If frames are only taken away, those that were there are still there as long as there are as
many. -/
theorem Atop.frames_of_height (atop : Atop start before)
    (lower : after.frames.toList <+: before.frames.toList)
    (tall : start.frames.height ≤ after.frames.height) :
    start.frames.toList <+: after.frames.toList :=
  List.prefix_of_prefix_length_le atop.frames lower tall

/-- The frames on top of those of the start. -/
theorem Atop.activeFrames (frames : start.frames.toList <+: before.frames.toList) :
    ∃ inner, before.activeFrames = inner ++ start.activeFrames := by
  obtain ⟨more, same⟩ := frames
  exact ⟨more.reverse,
    by rw [Processor.activeFrames, ← same, List.reverse_append, Processor.activeFrames]⟩

end Processor

/-- Frames that stand on others are not below them. -/
theorem Tower.floorOn_outer {chunk : Chunk} {lenient : Prop} {values : List Value}
    {inner outer : List Frame} (tower : Tower chunk lenient values (inner ++ outer)) :
    floorOn outer ≤ floorOn (inner ++ outer) := by
  induction inner with
  | nil => exact Nat.le_refl _
  | cons frame rest inductionHypothesis =>
    obtain ⟨⟨count, callee, window⟩, _, below⟩ := tower
    have deep : floorOn (rest ++ outer) + count + 2 ≤ frame.base := window.deep
    have lower := inductionHypothesis below
    change floorOn outer ≤ frame.base
    omega

/-- The frames of a tower that go on top of an opening do not reach below it. -/
theorem Tower.above {chunk : Chunk} {lenient : Prop} {values : List Value} {start : Processor}
    {inner : List Frame} (opening : start.Opening)
    (tower : Tower chunk lenient values (inner ++ start.activeFrames)) :
    start.values.height ≤ floorOn (inner ++ start.activeFrames) := by
  rw [← opening.base, base_eq_floorOn]
  exact tower.floorOn_outer

/-- The base of a tower is among its values. -/
theorem Tower.base_le {chunk : Chunk} {lenient : Prop} {processor : Processor}
    (tower : Tower chunk lenient processor.values.toList processor.activeFrames) :
    processor.base ≤ processor.values.height := base_eq_floorOn processor ▸ tower.floorOn_le

/-- The window of the top frame does not reach below the opening either. -/
theorem Processor.Atop.above {chunk : Chunk} {lenient : Prop} {start processor : Processor}
    (atop : Atop start processor) (opening : start.Opening)
    (tower : Tower chunk lenient processor.values.toList processor.activeFrames) :
    start.values.height ≤ processor.base := by
  obtain ⟨inner, split⟩ := Atop.activeFrames atop.frames
  rw [split] at tower
  rw [base_eq_floorOn, split]
  exact tower.above opening

/-! ### Moves -/

section

variable {start : Processor} {before after : Seen}

/-- A return leaves alone what lies below its frame, and so what there was at the start, if the
frames from the start are still there. -/
theorem Processor.Atop.drops {chunk : Chunk} {lenient : Prop} {middle after : Processor}
    {frame : Frame} {count : Nat} {results : List Value} (atop : Atop start middle)
    (opening : start.Opening) (tower : Tower chunk lenient middle.values.toList middle.activeFrames)
    (framed : Framed middle frame count) (dropped : Dropped frame count results middle after)
    (tall : start.frames.height ≤ after.frames.height) : Atop start after := by
  have lower : after.frames.toList <+: middle.frames.toList :=
    dropped.frames ▸ List.dropLast_prefix _
  have frames := atop.frames_of_height lower tall
  obtain ⟨inner, split⟩ := Atop.activeFrames frames
  have isTop : middle.activeFrames.head? = some frame :=
    (top_activeFrames middle).symm.trans framed.top
  obtain ⟨rest, active⟩ := List.head?_eq_some_iff.mp isTop
  have below : rest = inner ++ start.activeFrames := by
    rw [← split, dropped.activeFrames, active, List.tail_cons]
  rw [active, below] at tower
  obtain ⟨⟨own, callee, window⟩, _, underneath⟩ := tower
  have counted := framed.counted
  rw [BoundedStack.get?_eq] at counted
  obtain rfl : own = count := Option.some.inj (window.reads.symm.trans counted)
  have deep := window.deep
  have height := window.height
  have above := underneath.above opening
  refine atop.of_take (frame.base - (own + 2)) (by omega) ?_ frames
  rw [dropped.values, List.take_append_of_le_length (by rw [List.length_take]; omega),
    List.take_take, Nat.min_self]

/-- Closing a call drops what lies above the heights that the call began at. If the frame is still
there afterwards it lies below both of them, and so does all that it stands on. -/
theorem Processor.Atop.restores {chunk : Chunk} {lenient : Prop} {processor : Processor}
    {valueHeight : Nat} {inner outer : List Frame} (atop : Atop start processor) (mayYield : Bool)
    (opening : start.Opening) (split : processor.activeFrames = inner ++ outer)
    (tower : Tower chunk lenient (processor.values.toList.take valueHeight) outer)
    (tall :
      start.frames.height ≤ (restore valueHeight outer.length mayYield processor).frames.height) :
    Atop start (restore valueHeight outer.length mayYield processor) := by
  have lower : (restore valueHeight outer.length mayYield processor).frames.toList <+:
      processor.frames.toList := by
    rw [restore, BoundedStack.toList_truncate]
    exact List.take_prefix _ _
  have frames := atop.frames_of_height lower tall
  obtain ⟨more, same⟩ := Atop.activeFrames frames
  rw [activeFrames_restore split valueHeight mayYield] at same
  have fits := tower.floorOn_le
  rw [same] at tower fits
  have above := tower.above opening
  rw [List.length_take] at fits
  refine atop.of_take valueHeight (by omega) ?_ frames
  rw [restore, BoundedStack.toList_truncate, List.take_take, Nat.min_self]

/-- A frame keeps its ground while a coroutine is in use. Work, calls and returns happen above it as
long as it is there, since the base of every later frame is; and the call that is closed has begun
above it, or the frame would be gone. -/
theorem Inner.atop (move : Inner rules before after) (sound : Sound rules id before)
    (small : rules.settings.valueCapacity ≤ 2 ^ 53) (opening : start.Opening)
    (tall : start.frames.height ≤ after.coroutine.processor.frames.height)
    (atop : Atop start before.coroutine.processor) : Atop start after.coroutine.processor := by
  have laid : before.marks ≠ [] → Laid rules.ground before := fun marked =>
    (sound.stacked small).laid (.inr marked)
  have towers : before.marks ≠ [] →
      ∀ {values frames}, rules.ground.Intact before.marks values frames →
      Tower rules.chunk (rules.fromTop ∧ id = Store.main) values frames := fun marked _ _ intact =>
    intact.tower sound.handled.shaped marked
  have kept : ∀ {processor : Processor}, Driven before.marks → before.standing.Whole →
      Keeps before.coroutine.processor processor → Atop start processor := by
    intro processor driven whole keeps
    have tower := towers driven.ne_nil ((laid driven.ne_nil).whole whole)
    exact atop.keeps (atop.above opening tower) tower.base_le keeps
  cases move with
  | executes driven effect =>
    have intact := (laid driven.ne_nil).whole trivial
    have drops : ∀ {middle after : Processor} {frame : Frame} {count : Nat} {results : List Value},
        Keeps _ middle → Framed middle frame count → Dropped frame count results middle after →
        start.frames.height ≤ after.frames.height → Atop start after :=
      fun keeps framed dropped tall => (kept driven trivial keeps).drops opening
        (towers driven.ne_nil (intact.keeps driven keeps)) framed dropped tall
    cases effect with
    | stays keeps => exact kept driven trivial keeps
    | opens keeps opened exact returns => exact (kept driven trivial keeps).opened opened
    | drops keeps framed dropped returns => exact drops keeps framed dropped tall
    | leaves keeps framed dropped returns => exact drops keeps framed dropped tall
    | yields keeps permitted => exact kept driven trivial keeps
    | callsHost keeps => exact kept driven trivial keeps
    | resumes keeps => exact kept driven trivial keeps
  | falters driven effect allowed =>
    cases effect with
    | keeps keeps => exact kept driven trivial keeps
    | loses keeps lost =>
      have intact := ((laid driven.ne_nil).whole trivial).keeps driven keeps
      obtain ⟨frame, count, framed⟩ := intact.exists_framed driven
      exact absurd framed (lost.astray (keeps.room sound.supplied.roomy.room) frame count)
  | works driven keeps unfinished reaches => exact kept driven unfinished.whole keeps
  | leaves unfinished => exact atop
  | calls used unfinished admitted prepared =>
    refine Atop.enters ?_ prepared
    exact atop.congr rfl rfl
  | @closesCall coroutine valueHeight frameHeight mayYield =>
    obtain ⟨usable, shaped⟩ := sound.handled.shaped
    obtain ⟨_, outer, split, rfl, below⟩ := (laid (by simp)).below
    exact (atop.restores mayYield opening split (below.tower shaped usable.ne_nil) tall).congr
      rfl rfl
  | waits driven unfinished running => exact atop
  | wakes => exact atop
  | guarded allowed operated => exact atop.congr rfl rfl

/-- A frame keeps its ground when its coroutine is entered and left as a whole, too. A resume that
would begin anew finds no frames, and an end that is no yield leaves none, so that neither is
possible while the frame is there. -/
theorem Move.atop (move : Move rules id before after) (sound : Sound rules id before)
    (small : rules.settings.valueCapacity ≤ 2 ^ 53) (opening : start.Opening)
    (tall : start.frames.height ≤ after.coroutine.processor.frames.height)
    (atop : Atop start before.coroutine.processor) : Atop start after.coroutine.processor := by
  have framed : before.coroutine.processor.activeFrames ≠ [] := by
    intro none
    obtain ⟨inner, split⟩ := Atop.activeFrames atop.frames
    rw [none] at split
    have nothing := (List.append_eq_nil_iff.mp split.symm).2
    exact opening.framed (List.reverse_eq_nil_iff.mp nothing)
  cases move with
  | inner move => exact move.atop sound small opening tall atop
  | resumes unfinished resumable free admitted prepared =>
    have unmarked := sound.handled.unmarked_of_free free
    have other := sound.handled.other_of_resumable resumable
    cases resumeEntry_of_prepared prepared with
    | continues saved grows values =>
      refine Atop.grows ?_ grows
      exact atop.congr rfl rfl
    | overflows saved grows own =>
      refine Atop.grows ?_ grows
      exact atop.congr rfl rfl
    | starts fresh entry prepared => exact absurd (sound.tiered.empty other unmarked fresh).2 framed
    | spent fresh entry => exact atop.congr rfl rfl
  | @closesResume coroutine status marks outcome =>
    have cleared : ∀ processor : Processor, processor.frames.toList = [] →
        ¬ start.frames.height ≤ processor.frames.height := by
      intro processor none tall
      rw [← BoundedStack.length_toList, ← BoundedStack.length_toList, none] at tall
      exact opening.framed (List.eq_nil_of_length_eq_zero (Nat.le_zero.mp tall))
    match outcome with
    | .ok (.yielded value resumeAt) => exact atop.congr rfl rfl
    | .ok (.returned value) => exact absurd tall (cleared _ rfl)
    | .error error => exact absurd tall (cleared _ rfl)
  | borrows isMain unfinished free => exact atop
  | pushes isMain grows => exact atop.grows grows
  | releases => exact atop
  | callsTop allowed isMain unfinished admitted prepared =>
    obtain ⟨_, rfl⟩ := sound.handled.shaped
    have none := ((sound.tiered.inUse (.inl isMain)).whole unfinished.whole)
    exact absurd none framed
  | holds before after => exact atop
  | born other newborn => exact absurd rfl framed

/-- In one step only the last move can have taken the frame away. -/
theorem Course.atop (course : Course rules id before after) (sound : Sound rules id before)
    (small : rules.settings.valueCapacity ≤ 2 ^ 53) (opening : start.Opening)
    (tall : start.frames.height ≤ after.coroutine.processor.frames.height)
    (atop : Atop start before.coroutine.processor) : Atop start after.coroutine.processor := by
  induction course with
  | stays => exact atop
  | @moves middle after earlier ready move inductionHypothesis =>
    have still : start.frames.height ≤ middle.coroutine.processor.frames.height := by
      rw [← BoundedStack.length_toList middle.coroutine.processor.frames, ready.frames]
      exact atop.frames.length_le
    exact move.atop (earlier.toMoves.sound sound) small opening tall (inductionHypothesis still)

end

/-! ### The call and its return -/

section

variable {chunk : Chunk} {below arguments : List Value} {callee : Value} {frame : Frame}
  {before start processor after : Processor} {results next : Nat}

/-- The frame that has been opened is the top one. -/
theorem Processor.Opened.top (opened : Opened chunk below callee arguments frame before start) :
    start.frames.top? = some frame := by
  rw [BoundedStack.top?_eq, opened.frames, List.getLast?_concat]

/-- It begins right above what has been pushed for it. -/
theorem Processor.Opened.opening (opened : Opened chunk below callee arguments frame before start) :
    start.Opening where
  base := (base_of_top opened.top).trans opened.base
  framed := by simp [opened.frames]

/-- What a frame takes up besides its window lies on what it was opened on. -/
theorem Processor.Opened.floor (opened : Opened chunk below callee arguments frame before start) :
    frame.base - (arguments.length + 2) = below.length := by
  have lengths := congrArg List.length opened.values
  simp only [BoundedStack.length_toList, List.length_append, List.length_cons, List.length_nil]
    at lengths
  rw [opened.base]
  omega

/-- A frame finds the number of its arguments as long as what it was opened on is there, and the
number is small enough to have been recorded exactly. -/
theorem Processor.Opened.framed (opened : Opened chunk below callee arguments frame before start)
    (small : start.values.height ≤ 2 ^ 53) (atop : Atop start processor)
    (alone : processor.frames.toList = start.frames.toList) :
    Framed processor frame arguments.length := by
  have same : processor.values.toList.take frame.base = start.values.toList.take frame.base := by
    rw [opened.base, ← BoundedStack.length_toList, ← List.prefix_iff_eq_take.mp atop.values,
      List.take_length]
  have window := (window_of_opened True opened small (.inr trivial)).congr same
  have deep := window.deep
  refine ⟨?_, ?_, by omega⟩
  · rw [BoundedStack.top?_eq, alone, ← BoundedStack.top?_eq, opened.top]
  · rw [BoundedStack.get?_eq]
    exact window.reads

/-- There is one top frame and one number of arguments that it finds. -/
theorem Processor.Framed.unique {other : Frame} {count own : Nat}
    (framed : Framed processor frame count) (also : Framed processor other own) :
    other = frame ∧ own = count := by
  obtain rfl : other = frame := Option.some.inj (also.top.symm.trans framed.top)
  exact ⟨rfl, Option.some.inj (also.counted.symm.trans framed.counted)⟩

/-- A return that has a result drops its frame. -/
theorem Store.Returns.frames {outcome : Except ScriptError Flow} {value : Value}
    {middle : Processor} (returns : Store.Returns results outcome before after)
    (popped : popResult results before = (.ok value, middle)) :
    after.frames.toList = before.frames.toList.dropLast := by
  have kept := ((inWindow_popResult results before).of_ok popped).frames
  cases returns with
  | short failed => cases failed.symm.trans popped
  | strays again lost own =>
    cases popped.symm.trans again
    rw [lost.frames, kept]
  | host again framed dropped returns =>
    cases popped.symm.trans again
    rw [dropped.frames, kept]
  | code again framed dropped returns =>
    cases popped.symm.trans again
    rw [dropped.frames, kept]

/-- A return drops one frame at most. -/
theorem Store.Returns.height {outcome : Except ScriptError Flow}
    (returns : Store.Returns results outcome before after) :
    before.frames.height ≤ after.frames.height + 1 := by
  cases popped : popResult results before with
  | mk taken middle =>
    cases taken with
    | ok value =>
      have lengths := congrArg List.length (returns.frames popped)
      rw [List.length_dropLast, BoundedStack.length_toList, BoundedStack.length_toList] at lengths
      omega
    | error error =>
      have kept := ((inWindow_popResult results before).of_error popped).1.frames
      cases returns with
      | short failed =>
        cases popped.symm.trans failed
        rw [kept]
        exact Nat.le_add_right _ _
      | strays again => cases popped.symm.trans again
      | host again => cases popped.symm.trans again
      | code again => cases popped.symm.trans again

/-- The return of a frame that an instruction has opened puts one value on what the frame was opened
on. -/
theorem Processor.Opened.returned {outcome : Except ScriptError Flow}
    (opened : Opened chunk below callee arguments frame before start)
    (instruction : frame.returnPoint = .instruction next) (small : start.values.height ≤ 2 ^ 53)
    (atop : Atop start processor) (alone : processor.frames.height = start.frames.height)
    (room : processor.values.height ≤ processor.values.capacity)
    (returns : Store.Returns results outcome processor after)
    (popped : after.frames.height < processor.frames.height) :
    outcome = .ok (.goto next) ∧
      ∃ value middle, popResult results processor = (.ok value, middle) ∧
        after.values.toList = below ++ [value] ∧ after.frames.toList = before.frames.toList := by
  have frames : processor.frames.toList = start.frames.toList :=
    (atop.frames.eq_of_length alone.symm).symm
  have base : processor.base = start.values.height := by
    rw [← opened.opening.base, Processor.base, Processor.base, BoundedStack.top?_eq, frames,
      BoundedStack.top?_eq]
  have taken : ∀ {value : Value} {middle : Processor},
      popResult results processor = (.ok value, middle) →
      Atop start middle ∧ middle.frames.toList = start.frames.toList ∧
        middle.values.height ≤ middle.values.capacity := by
    intro value middle popped
    have keeps := (inWindow_popResult results processor).of_ok popped
    refine ⟨atop.keeps (Nat.le_of_eq base.symm) (base ▸ atop.values.length_le) keeps, ?_,
      keeps.room room⟩
    rw [keeps.frames, frames]
  cases returns with
  | short failed =>
    rw [((inWindow_popResult results processor).of_error failed).1.frames] at popped
    exact absurd popped (Nat.lt_irrefl _)
  | strays popped lost own =>
    obtain ⟨still, alone, room⟩ := taken popped
    exact absurd (opened.framed small still alone) (lost.astray room frame arguments.length)
  | host popped framed dropped returns =>
    obtain ⟨still, alone, _⟩ := taken popped
    obtain ⟨rfl, _⟩ := (opened.framed small still alone).unique framed
    cases instruction.symm.trans returns
  | @code pointer value _ _ _ middle _ popped framed dropped returns =>
    obtain ⟨still, alone, _⟩ := taken popped
    obtain ⟨rfl, rfl⟩ := (opened.framed small still alone).unique framed
    cases instruction.symm.trans returns
    refine ⟨rfl, value, middle, popped, ?_, ?_⟩
    · have lower : below <+: middle.values.toList :=
        (opened.values ▸ List.prefix_append _ _ : below <+: start.values.toList).trans still.values
      rw [dropped.values, opened.floor, ← List.prefix_iff_eq_take.mp lower]
    · rw [dropped.frames, alone, opened.frames, List.dropLast_concat]

end

/-! ### Runs -/

section

variable {W : Type} {host : Host W} {allowances : Allowances} {machine : Machine W}
  {pointer count : Nat}

/-- A call instruction has opened a frame if there are more of them after it. Only the call of a
closure comes to that. -/
theorem Machine.Sound.call_opens (sound : machine.Sound allowances)
    (coding : machine.focus = .code id pointer)
    (found : machine.store.chunk.instruction? pointer = some (.call count))
    (pushed : (machine.store.processor id).frames.height <
      ((machine.step host).store.processor id).frames.height) :
    ∃ middle closure arguments frame, Taken (count + 1) (machine.store.processor id) middle ∧
      Opened machine.store.chunk middle.values.toList (.closure closure) arguments frame middle
        ((machine.step host).store.processor id) ∧
      frame.returnPoint = .instruction (pointer + 1) := by
  obtain ⟨store, world, focus, pending⟩ := machine
  obtain rfl : focus = .code id pointer := coding
  have known : store.Has id := sound.known rfl
  have ends := Store.call_opens count (pointer + 1) known
  have kept : ∀ {processor : Processor}, Keeps (store.processor id) processor →
      ¬ (store.processor id).frames.height < processor.frames.height := by
    intro processor keeps pushed
    rw [keeps.frames] at pushed
    exact Nat.lt_irrefl _ pushed
  simp only [Machine.step, Machine.stepCode, found] at pushed ⊢
  cases reached : Store.execute id (.call count) (pointer + 1) store with
  | mk outcome after =>
    simp only [reached] at pushed ⊢
    obtain ⟨flow, rfl, touches⟩ | ⟨error, rfl, touches, _⟩ := ends.either reached
    · cases touches.processor with
      | frame taken opened returns => exact ⟨_, _, _, _, taken, opened, returns⟩
      | host taken => exact absurd pushed (kept taken.keeps)
    · exact absurd pushed (kept touches.processor)

/-- What a step of a return instruction does: it drops the top frame with its arguments and callee,
and pushes the one value that its results come to, or hands it to the host. -/
theorem Machine.Sound.ret_returns {results : Nat} (host : Host W) (sound : machine.Sound allowances)
    (coding : machine.focus = .code id pointer)
    (found : machine.store.chunk.instruction? pointer = some (.ret results)) :
    ∃ outcome, Store.Returns results outcome (machine.store.processor id)
        ((machine.step host).store.processor id) ∧
      ∀ next, outcome = .ok (.goto next) → (machine.step host).focus = .code id next := by
  obtain ⟨store, world, focus, pending⟩ := machine
  obtain rfl : focus = .code id pointer := coding
  have known : store.Has id := sound.known rfl
  have ends := Store.leaveFrame_returns results known
  simp only [Machine.step, Machine.stepCode, found]
  cases reached : Store.execute id (.ret results) (pointer + 1) store with
  | mk outcome after =>
    obtain ⟨flow, rfl, touches⟩ | ⟨error, rfl, touches⟩ := ends.either reached
    · cases flow with
      | goto next =>
        refine ⟨.ok (.goto next), touches.processor, fun other reached => ?_⟩
        cases reached
        rfl
      | returned value =>
        exact ⟨.ok (.returned value), touches.processor, fun next reached => by cases reached⟩
      | _ => cases touches.processor
    · exact ⟨.error error, touches.processor, fun next failed => by cases failed⟩

/-- What a call with so many arguments has come to once its frame has returned: its callee and its
arguments have been replaced by one value, nothing else is different, and the code goes on at
`next`. -/
structure Machine.Bracketed (id : CoroutineId) (count next : Nat) (before : Processor)
    (result : Value) (machine : Machine W) : Prop where
  within : before.base + (count + 1) ≤ before.values.height
  values : (machine.store.processor id).values.toList =
    before.values.toList.take (before.values.height - (count + 1)) ++ [result]
  frames : (machine.store.processor id).frames.toList = before.frames.toList
  focus : machine.focus = .code id next

/-- The return that drops the frame of a call leaves one value, its result, in the place of the
callee and the arguments, whatever has happened while the frame was there. It finds that place by
the number of arguments, and the bound is the one up to which that is recorded exactly. -/
theorem call_bracketed {chunk : Chunk} {settings : Settings} {thread : ThreadId}
    {operations later : List Operation} {calling returning : Machine W} {back results : Nat}
    (small : settings.valueCapacity ≤ 2 ^ 53)
    (reached : Machine.Reachable host (.initial chunk settings thread) operations calling)
    (coding : calling.focus = .code id pointer)
    (calls : calling.store.chunk.instruction? pointer = some (.call count))
    (leads : Machine.LeadsWhile host (fun machine =>
      (calling.store.processor id).frames.height < (machine.store.processor id).frames.height)
      (calling.step host) later returning)
    (ending : returning.focus = .code id back)
    (returns : returning.store.chunk.instruction? back = some (.ret results))
    (popped : ((returning.step host).store.processor id).frames.height ≤
      (calling.store.processor id).frames.height) :
    ∃ result middle, popResult results (returning.store.processor id) = (.ok result, middle) ∧
      (returning.step host).Bracketed id count (pointer + 1)
      (calling.store.processor id) result := by
  obtain ⟨sound, _⟩ := reachable_sound (guardsAllowed host _) reached
  have begun := reached.leads (.steps .stays : Machine.Leads host calling [] (calling.step host))
  obtain ⟨started, lasts⟩ := reachable_sound (guardsAllowed host _) begun
  obtain ⟨ended, _⟩ := reachable_sound (guardsAllowed host _) (begun.leads leads.leads)
  obtain ⟨below, closure, arguments, frame, taken, opened, instruction⟩ :=
    sound.call_opens coding calls leads.holds_first
  have fits : (calling.step host).store.settings.valueCapacity ≤ 2 ^ 53 := lasts.settings ▸ small
  have frames : below.frames = (calling.store.processor id).frames := taken.keeps.frames
  have depth : ((calling.step host).store.processor id).frames.height =
      (calling.store.processor id).frames.height + 1 := by
    rw [← BoundedStack.length_toList, opened.frames, frames, List.length_append]
    rfl
  have atop : Atop ((calling.step host).store.processor id) (returning.store.processor id) := by
    refine (leads.keeps (fun machine => machine.store.settings.valueCapacity ≤ 2 ^ 53 ∧
      Atop ((calling.step host).store.processor id) (machine.store.processor id)) begun ?_
      ⟨fits, .refl _⟩).2
    rintro allowances before after sound advances _ tall ⟨small, atop⟩
    exact ⟨advances.lasts.settings ▸ small, (advances.courses id).atop (sound.coroutines id) small
      opened.opening (depth ▸ tall) atop⟩
  obtain ⟨outcome, returned, goesOn⟩ := ended.ret_returns host ending returns
  have tall := leads.holds_last
  have alone := returned.height
  obtain ⟨rfl, result, middle, popped, values, same⟩ := opened.returned instruction
    (Nat.le_trans (started.coroutines id).supplied.roomy.height fits) atop (by omega)
    (ended.coroutines id).supplied.roomy.room returned (by omega)
  refine ⟨result, middle, popped, taken.within, ?_, same.trans (congrArg _ frames), goesOn _ rfl⟩
  rw [values, taken.left, BoundedStack.toList_truncate]

end

/-! ### A call over a value -/

/-- A main body that keeps a value while it calls another function. -/
def keepingChunk : Chunk where
  functions := #[⟨"main", 0, 0, false⟩, ⟨"inner", 4, 0, false⟩]
  code := #[.literal (.boolean true), .makeClosure 1 [], .call 0, .ret 1, .ret 0]

/-- The script whose main body is about to call. -/
def callingMachine : Machine Unit := .sample .silent () keepingChunk (.call .mainBody []) 2

/-- The machine of this example is reached. -/
theorem reachable_callingMachine : Machine.Reachable Host.silent (.sample keepingChunk)
    [.call .mainBody []] callingMachine := reachable_sample ..

/-- The function returns nothing, and nil lies in the place of its closure, on the value that was
kept. -/
theorem inner_call_bracketed :
    callingMachine.focus = .code Store.main 2 ∧
      ((callingMachine.step .silent).step .silent).Bracketed Store.main 0 3
        (callingMachine.store.processor Store.main) .nil := by
  have coding : callingMachine.focus = .code Store.main 2 := by
    cbv
  have ending : (callingMachine.step .silent).focus = .code Store.main 4 := by
    cbv
  have outer : (callingMachine.store.processor Store.main).frames.height = 1 := by
    decide +kernel
  have inner : ((callingMachine.step .silent).store.processor Store.main).frames.height = 2 := by
    decide +kernel
  have reached := reachable_callingMachine
  -- Nothing is to be evaluated from here on, least of all the return.
  generalize callingMachine = machine at *
  have began :=
    reached.leads (.steps .stays : Machine.Leads Host.silent machine [] (machine.step .silent))
  obtain ⟨sound, lasts⟩ := reachable_sound (guardsAllowed _ _) began
  have calls : machine.store.chunk.instruction? 2 = some (.call 0) := by
    rw [(reachable_sound (guardsAllowed _ _) reached).2.chunk]
    rfl
  have returns : (machine.step .silent).store.chunk.instruction? 4 = some (.ret 0) := by
    rw [lasts.chunk]
    rfl
  obtain ⟨outcome, returned, _⟩ := sound.ret_returns .silent ending returns
  have lengths := congrArg List.length (returned.frames (rfl : popResult 0 _ = (.ok .nil, _)))
  rw [List.length_dropLast, BoundedStack.length_toList, BoundedStack.length_toList, inner]
    at lengths
  obtain ⟨result, middle, popped, bracketed⟩ := call_bracketed (by decide) reached coding calls
    (.stays (by omega)) ending returns (by omega)
  cases popped
  exact ⟨coding, bracketed⟩

end CoroutineVM
