import CoroutineVM.Proofs.Contents.Values
import CoroutineVM.Proofs.Layout.Dispatch

/-!
# The arguments of frames

A list of arguments is spread when a frame is opened, so that there is no tuple among the values
below the base of the frame. They stay as they are for as long as the frame does: work in the window
of a frame is done above its base, and whoever calls, returns or closes an entry leaves the frames
that remain, and all that lies below their bases, alone.

Where the arguments of a frame are is told by the number that is recorded with them, and that number
is exact only for as many values as a `Float` can count. Unlike the capacity of a stack, which is a
setting, its height is a fact of each machine, and it is what the lemmas ask about: a frame has to
be opened on a stack of no greater height.
-/

namespace CoroutineVM

open Processor

variable {rules : Rules} {id : CoroutineId} {chunk : Chunk} {values : List Value} {frame : Frame}
  {frames : List Frame}

/-- No tuple is among the arguments of a frame, of which there are so many. -/
def Single (values : List Value) (frame : Frame) (count : Nat) : Prop :=
  ∀ index value, frame.countSlot - count ≤ index → index < frame.countSlot →
    values[index]? = some value → value.isTuple = false

/-- Frames, innermost first. Each has its arguments, none of them a tuple, above the base of the
next outer one. -/
def Piled (chunk : Chunk) (values : List Value) : List Frame → Prop
  | [] => True
  | frame :: rest =>
    (∃ count callee, Window chunk True (floorOn rest) values frame count callee ∧
      Single values frame count) ∧ Piled chunk values rest

/-- The frames that are left when a call is closed have their bases among the values that are. -/
def Based (marks : List Mark) (frames : List Frame) : Prop :=
  ∀ valueHeight frameHeight mayYield, Mark.call valueHeight frameHeight mayYield ∈ marks →
    ∀ inner outer, frames = inner ++ outer → outer.length = frameHeight →
      floorOn outer ≤ valueHeight

/-- No call is to be closed at more frames than there are. -/
def Reached (marks : List Mark) (frames : List Frame) : Prop :=
  ∀ valueHeight frameHeight mayYield, Mark.call valueHeight frameHeight mayYield ∈ marks →
    frameHeight ≤ frames.length

namespace Piled

/-- Frames that are piled on values have their bases among them. -/
theorem floorOn_le (piled : Piled chunk values frames) : floorOn frames ≤ values.length := by
  cases frames with
  | nil => exact Nat.zero_le _
  | cons frame rest =>
    obtain ⟨⟨count, callee, window, _⟩, _⟩ := piled
    exact window.height

/-- What lies above the base of the top frame does not matter. -/
theorem congr {after : List Value} (piled : Piled chunk values frames)
    (same : after.take (floorOn frames) = values.take (floorOn frames)) :
    Piled chunk after frames := by
  induction frames with
  | nil => trivial
  | cons frame rest inductionHypothesis =>
    obtain ⟨⟨count, callee, window, single⟩, below⟩ := piled
    have deep := window.deep
    rw [floorOn_cons] at same
    refine ⟨⟨count, callee, window.congr same, fun index value lower upper found => ?_⟩,
      inductionHypothesis below (take_of_take same (by omega))⟩
    rw [getElem?_of_take same (by rw [Frame.countSlot] at upper; omega)] at found
    exact single index value lower upper found

/-- They are still piled on them if values are taken away down to the floor. -/
theorem take {height : Nat} (piled : Piled chunk values frames) (above : floorOn frames ≤ height) :
    Piled chunk (values.take height) frames :=
  piled.congr (by rw [List.take_take, Nat.min_eq_left above])

/-- The outer frames of a pile are one. -/
theorem outer {inner outer : List Frame} (piled : Piled chunk values (inner ++ outer)) :
    Piled chunk values outer := by
  induction inner with
  | nil => exact piled
  | cons frame rest inductionHypothesis => exact inductionHypothesis piled.2

/-- A frame that is opened is piled on the others with its arguments, none of which is a tuple.
Their number is found again because it is small enough to be recorded exactly. -/
theorem opened {below given : List Value} {callee : Value} {before after : Processor}
    (piled : Piled chunk below before.activeFrames)
    (opens : Opened chunk below callee (Value.spread given) frame before after)
    (small : after.values.height ≤ 2 ^ 53) :
    Piled chunk after.values.toList after.activeFrames := by
  have window := window_of_opened True opens small (.inr trivial)
  have deep := window.deep
  have floor := piled.floorOn_le
  rw [opens.activeFrames]
  refine ⟨⟨_, callee, { window with deep := by omega }, ?_⟩, piled.congr ?_⟩
  · intro index value lower upper found
    have base := opens.base
    have height : after.values.height = below.length + (Value.spread given).length + 2 := by
      rw [← BoundedStack.length_toList, opens.values]
      simp only [List.length_append, List.length_cons, List.length_nil]
      omega
    rw [Frame.countSlot] at lower upper
    obtain ⟨place, rfl⟩ : ∃ place, index = below.length + (place + 1) :=
      ⟨index - below.length - 1, by omega⟩
    rw [opens.values, List.getElem?_append_right (Nat.le_add_right _ _), Nat.add_sub_cancel_left,
      List.getElem?_cons_succ, List.getElem?_append_left (by omega)] at found
    exact Value.isTuple_of_mem_spread (List.mem_of_getElem? found)
  · rw [opens.values, List.take_append_of_le_length floor]

/-- Work above the base does not concern them. -/
theorem keeps {before after : Processor}
    (piled : Piled chunk before.values.toList before.activeFrames) (keeps : Keeps before after) :
    Piled chunk after.values.toList after.activeFrames := by
  rw [activeFrames_congr keeps.frames]
  have same := keeps.below
  rw [base_eq_floorOn] at same
  exact piled.congr (same piled.floorOn_le)

/-- The number of its arguments that code reads is that of the top frame. -/
theorem counted {rest : List Frame} {count : Nat} (piled : Piled chunk values (frame :: rest))
    (counts : (values[frame.countSlot]?).bind countOf? = some count) :
    floorOn rest + count + 2 ≤ frame.base ∧ Single values frame count := by
  obtain ⟨⟨own, callee, window, single⟩, _⟩ := piled
  obtain rfl : own = count := Option.some.inj (window.reads.symm.trans counts)
  exact ⟨window.deep, single⟩

/-- When a frame is dropped, those below it are piled on what is left: the results lie above the
floor of the next one. -/
theorem dropped {before after : Processor} {count : Nat} {results : List Value}
    (piled : Piled chunk before.values.toList before.activeFrames)
    (framed : Framed before frame count) (dropped : Dropped frame count results before after) :
    Piled chunk after.values.toList after.activeFrames := by
  have top := framed.top
  rw [top_activeFrames] at top
  obtain ⟨rest, active⟩ := List.head?_eq_some_iff.mp top
  have counts := framed.counted
  rw [BoundedStack.get?_eq] at counts
  rw [active] at piled
  obtain ⟨deep, _⟩ := piled.counted counts
  have height := piled.floorOn_le
  rw [floorOn_cons] at height
  rw [dropped.activeFrames, active, List.tail_cons, dropped.values]
  refine piled.2.congr ?_
  rw [List.take_append_of_le_length (by rw [List.length_take]; omega),
    List.take_take, Nat.min_eq_left (by omega)]

/-- A frame in a pile finds its arguments, so that none is lost. The number of arguments has been
recorded exactly, and it lies where the frame looks for it. -/
theorem lost {before after : Processor}
    (piled : Piled chunk before.values.toList before.activeFrames) (lost : Lost before after)
    (room : before.values.height ≤ before.values.capacity) :
    before.activeFrames = [] ∧ after.activeFrames = [] := by
  cases active : before.activeFrames with
  | nil => exact ⟨rfl, by rw [lost.activeFrames, active]; rfl⟩
  | cons frame rest =>
    rw [active] at piled
    obtain ⟨⟨count, callee, window, _⟩, _⟩ := piled
    have deep := window.deep
    refine absurd ⟨?_, ?_, by omega⟩ (lost.astray room frame count)
    · rw [top_activeFrames, active]
      rfl
    · rw [BoundedStack.get?_eq]
      exact window.reads

end Piled

namespace Based

variable {marks : List Mark}

/-- The frames that are left when a call is closed are left all the same after the innermost frame
has been dropped. -/
theorem tail (based : Based marks frames) : Based marks frames.tail := by
  intro valueHeight frameHeight mayYield member inner outer split height
  cases frames with
  | nil => exact based _ _ _ member inner outer split height
  | cons frame rest => exact based _ _ _ member (frame :: inner) outer (congrArg _ split) height

/-- A new frame is not among those that are left when a call is closed. -/
theorem cons (based : Based marks frames) (reached : Reached marks frames) :
    Based marks (frame :: frames) := by
  intro valueHeight frameHeight mayYield member inner outer split height
  have inside := reached _ _ _ member
  cases inner with
  | nil =>
    obtain rfl : frame :: frames = outer := split
    rw [List.length_cons] at height
    omega
  | cons first inner =>
    obtain ⟨_, rest⟩ := List.cons.inj split
    exact based _ _ _ member inner outer rest height

/-- A call finds frames whose bases are among the values that it finds. -/
theorem call {valueHeight : Nat} {mayYield : Bool} {inner outer : List Frame}
    (based : Based marks frames) (split : frames = inner ++ outer)
    (above : floorOn outer ≤ valueHeight) :
    Based (.call valueHeight outer.length mayYield :: marks) frames := by
  intro otherHeight frameHeight otherYield member left right again height
  obtain same | member := List.mem_cons.mp member
  · cases same
    obtain ⟨_, rfl⟩ := List.append_inj' (split.symm.trans again) height.symm
    exact above
  · exact based _ _ _ member left right again height

end Based

/-- Frames that are in levels reach up to every height that a call goes back to, since each call has
left those of the calls around it in their places. -/
theorem Leveled.reached {marks : List Mark} (leveled : Leveled marks frames)
    (shaped : Shaped id marks) :
    Reached marks frames := by
  intro valueHeight frameHeight mayYield member
  induction marks generalizing frames with
  | nil => cases member
  | cons mark rest inductionHypothesis =>
    cases mark with
    | call otherHeight otherFrames otherYield =>
      obtain ⟨inner, outer, rfl, length, _, below⟩ := leveled
      rw [List.length_append]
      obtain same | member := List.mem_cons.mp member
      · cases same
        omega
      · have within := inductionHypothesis below shaped.2 member
        omega
    | resume before =>
      obtain ⟨_, _, rfl⟩ := shaped
      cases member with
      | tail _ member => cases member
    | wake =>
      cases member with
      | tail _ member => exact inductionHypothesis leveled shaped.2.2 member
    | borrow =>
      obtain ⟨_, rfl⟩ := shaped
      cases member with
      | tail _ member => cases member

/-! ### Moves -/

/-- The frames of a processor have their arguments, and those that wait on it go back to such
frames. -/
structure Blocks (chunk : Chunk) (marks : List Mark) (processor : Processor) : Prop where
  piled : Piled chunk processor.values.toList processor.activeFrames
  based : Based marks processor.activeFrames

/-- No frame has been opened, or there are no more values than a number of arguments can tell. -/
def Countable (before after : Processor) : Prop :=
  after.frames.toList = before.frames.toList ∨ after.values.height ≤ 2 ^ 53

namespace Blocks

variable {marks : List Mark} {before after : Processor}

/-- Only what the stacks hold matters, and the calls that are to be closed. -/
theorem congr {later : List Mark} (blocks : Blocks chunk marks before)
    (values : after.values = before.values) (frames : after.frames = before.frames)
    (calls : ∀ valueHeight frameHeight mayYield,
      Mark.call valueHeight frameHeight mayYield ∈ later →
        Mark.call valueHeight frameHeight mayYield ∈ marks) : Blocks chunk later after := by
  constructor
  · rw [values, activeFrames_congr frames]
    exact blocks.piled
  · rw [activeFrames_congr frames]
    exact fun _ _ _ member => blocks.based _ _ _ (calls _ _ _ member)

/-- Where there are no frames nothing is asked of the values. -/
theorem empty (empty : after.activeFrames = []) : Blocks chunk marks after := by
  constructor
  · rw [empty]
    trivial
  · rw [empty]
    intro _ _ _ _ inner outer split _
    obtain ⟨_, rfl⟩ := List.append_eq_nil_iff.mp split.symm
    exact Nat.zero_le _

/-- Work above the base of the top frame keeps the blocks of arguments. -/
theorem keeps (blocks : Blocks chunk marks before) (keeps : Keeps before after) :
    Blocks chunk marks after := by
  refine ⟨blocks.piled.keeps keeps, ?_⟩
  rw [activeFrames_congr keeps.frames]
  exact blocks.based

/-- So does a return. -/
theorem dropped {count : Nat} {results : List Value} (blocks : Blocks chunk marks before)
    (framed : Framed before frame count) (dropped : Dropped frame count results before after) :
    Blocks chunk marks after := by
  refine ⟨blocks.piled.dropped framed dropped, ?_⟩
  rw [dropped.activeFrames]
  exact blocks.based.tail

/-- A frame that is opened has a block of its own, because its arguments have been spread. That the
block is found there later is where the number of values comes in. -/
theorem opened {below given : List Value} {callee : Value} (blocks : Blocks chunk marks before)
    (opens : Opened chunk below callee (Value.spread given) frame before after)
    (piled : Piled chunk below before.activeFrames) (reached : Reached marks before.activeFrames)
    (countable : Countable before after) : Blocks chunk marks after := by
  obtain same | small := countable
  · rw [opens.frames] at same
    exact absurd (congrArg List.length same) (by simp)
  · refine ⟨piled.opened opens small, ?_⟩
    rw [opens.activeFrames]
    exact blocks.based.cons reached

/-- A call from the host opens a frame over all that was there, or over what its callee lay on. If
it fails no frame is opened, and what it has pushed by then lies above those that are there. -/
theorem call {callee : Option Value} {arguments : List Value} {entered : Except ScriptError Nat}
    (blocks : Blocks chunk marks before)
    (prepared : enterFromHost chunk callee arguments before = (entered, after))
    (above : floorOn before.activeFrames ≤ floorOfCall callee before)
    (reached : Reached marks before.activeFrames) (countable : Countable before after)
    (mayYield : Bool) :
    Blocks chunk
      (.call (floorOfCall callee before) before.frames.height mayYield :: marks) after := by
  rw [← length_activeFrames]
  obtain ⟨pointer, rfl, below, called, frame, calls, opens, _⟩ | ⟨error, rfl, grows, _⟩ :=
    (enterFromHost_ends chunk callee arguments before).either prepared
  · have lower : before.values.toList.take (floorOfCall callee before) = below := by
      cases callee with
      | some value =>
        rw [calls.1, floorOfCall, Option.isSome_some, if_pos rfl, ← BoundedStack.length_toList,
          List.take_length]
      | none =>
        have values : before.values.toList = below ++ [called] := calls
        rw [floorOfCall, Option.isSome_none, if_neg Bool.false_ne_true,
          ← BoundedStack.length_toList, values]
        simp
    have after := blocks.opened opens (lower ▸ blocks.piled.take above) reached countable
    refine ⟨after.piled, ?_⟩
    have based := after.based
    rw [opens.activeFrames] at based ⊢
    exact based.call (show _ = [frame] ++ before.activeFrames from rfl) above
  · have after := blocks.keeps grows.keeps
    refine ⟨after.piled, ?_⟩
    have based := after.based
    rw [activeFrames_congr grows.frames] at based ⊢
    exact based.call (show _ = [] ++ before.activeFrames from rfl) above

/-- When a call is closed, the frames that it found are left. They are piled on the values that are
left with them, since their bases are not above the height that the call goes back to. -/
theorem restore {valueHeight frameHeight : Nat} {mayYield : Bool}
    (blocks : Blocks chunk (.call valueHeight frameHeight mayYield :: marks) before)
    {inner outer : List Frame} (split : before.activeFrames = inner ++ outer)
    (height : outer.length = frameHeight) :
    Blocks chunk marks (before.restore valueHeight frameHeight mayYield) := by
  subst height
  have above := blocks.based _ _ _ List.mem_cons_self inner outer split rfl
  have active := activeFrames_restore split valueHeight mayYield
  constructor
  · have piled := blocks.piled
    rw [split] at piled
    rw [active, Processor.restore, BoundedStack.toList_truncate]
    exact piled.outer.take above
  · rw [active]
    intro _ _ _ member left right again height
    refine blocks.based _ _ _ (List.mem_cons_of_mem _ member) (inner ++ left) right ?_ height
    rw [split, again, List.append_assoc]

end Blocks

/-- What a coroutine does with one of its moves leaves the arguments of the frames that remain
alone. -/
theorem Inner.blocks {before after : Seen} (move : Inner rules before after)
    (handled : Handled id before) (tiered : Tiered id before)
    (room : before.coroutine.processor.values.height ≤ before.coroutine.processor.values.capacity)
    (countable : Countable before.coroutine.processor after.coroutine.processor)
    (blocks : Blocks rules.chunk before.marks before.coroutine.processor) :
    Blocks rules.chunk after.marks after.coroutine.processor := by
  have reached : before.marks ≠ [] → before.standing.Whole →
      Reached before.marks before.coroutine.processor.activeFrames := fun marked whole =>
    ((tiered.inUse (.inr marked)).whole whole).reached handled.shaped
  cases move with
  | executes driven effect =>
    cases effect with
    | stays keeps => exact blocks.keeps keeps
    | yields keeps permitted => exact blocks.keeps keeps
    | callsHost keeps => exact blocks.keeps keeps
    | resumes keeps => exact blocks.keeps keeps
    | opens keeps opened exact returns =>
      have middle := blocks.keeps keeps
      have reached := reached driven.ne_nil trivial
      rw [← activeFrames_congr keeps.frames] at reached
      refine middle.opened opened middle.piled reached (countable.imp_left fun same => ?_)
      rw [same, keeps.frames]
    | drops keeps framed dropped returns => exact (blocks.keeps keeps).dropped framed dropped
    | leaves keeps framed dropped returns => exact (blocks.keeps keeps).dropped framed dropped
  | falters driven effect allowed =>
    cases effect with
    | keeps keeps => exact blocks.keeps keeps
    | loses keeps lost => exact .empty ((blocks.keeps keeps).piled.lost lost (keeps.room room)).2
  | works driven keeps unfinished reaches => exact blocks.keeps keeps
  | leaves unfinished => exact blocks.congr rfl rfl fun _ _ _ member => member
  | calls used unfinished admitted prepared =>
    refine Blocks.call ?_ prepared ?_ (reached used.ne_nil unfinished.whole) countable _
    · exact blocks.congr rfl rfl fun _ _ _ member => member
    · have floor := blocks.piled.floorOn_le
      rwa [BoundedStack.length_toList] at floor
  | closesCall =>
    obtain ⟨inner, outer, split, height, _⟩ := (tiered.inUse (.inr (by simp))).below
    exact (blocks.restore split height).congr rfl rfl fun _ _ _ member => member
  | waits driven unfinished running =>
    refine blocks.congr rfl rfl fun _ _ _ member => ?_
    cases member with
    | tail _ member => exact member
  | wakes => exact blocks.congr rfl rfl fun _ _ _ => List.mem_cons_of_mem _
  | guarded allowed operated => exact blocks.congr rfl rfl fun _ _ _ member => member

/-- A resume goes on with the frames that were left at a yield, or it opens the first one. In
between nobody has touched the stacks of the coroutine. -/
theorem Processor.ResumeEntry.blocks {arguments : List Value} {before after : Processor}
    {entered : Except ScriptError Nat} {status : CoroutineStatus}
    (entry : ResumeEntry chunk arguments before entered after)
    (blocks : Blocks chunk [] before) (countable : Countable before after) :
    Blocks chunk [.resume status] after := by
  have uncalled : ∀ valueHeight frameHeight mayYield,
      ¬ Mark.call valueHeight frameHeight mayYield ∈ [Mark.resume status] := by simp
  have grown : ∀ {start : Processor}, Grows start after → start.values = before.values →
      start.frames = before.frames → Blocks chunk [.resume status] after := by
    intro start grows values frames
    have same : Blocks chunk [.resume status] start :=
      blocks.congr values frames fun _ _ _ member => absurd member (uncalled _ _ _)
    exact same.keeps grows.keeps
  cases entry with
  | continues saved grows values => exact grown grows rfl rfl
  | overflows saved grows own => exact grown grows rfl rfl
  | starts fresh closure prepared =>
    have start : Blocks chunk [] { before with entry := none } :=
      blocks.congr rfl rfl fun _ _ _ member => by cases member
    have floor := blocks.piled.floorOn_le
    rw [BoundedStack.length_toList] at floor
    have called := start.call prepared floor (fun _ _ _ member => by cases member) countable true
    exact called.congr rfl rfl fun _ _ _ member => absurd member (uncalled _ _ _)
  | spent fresh closure =>
    exact blocks.congr rfl rfl fun _ _ _ member => absurd member (uncalled _ _ _)

/-- Every move of a coroutine keeps the blocks. A resume begins on empty stacks or on those that the
coroutine has been suspended with; everything else is a move in use. -/
theorem Move.blocks {before after : Seen} (move : Move rules id before after)
    (handled : Handled id before) (tiered : Tiered id before)
    (room : before.coroutine.processor.values.height ≤ before.coroutine.processor.values.capacity)
    (countable : Countable before.coroutine.processor after.coroutine.processor)
    (blocks : Blocks rules.chunk before.marks before.coroutine.processor) :
    Blocks rules.chunk after.marks after.coroutine.processor := by
  cases move with
  | inner move => exact move.blocks handled tiered room countable blocks
  | resumes unfinished resumable free admitted prepared =>
    obtain rfl := handled.unmarked_of_free free
    exact (resumeEntry_of_prepared prepared).blocks
      (blocks.congr rfl rfl fun _ _ _ member => member) countable
  | @closesResume coroutine status marks outcome =>
    obtain ⟨_, _, rfl⟩ := handled.shaped
    match outcome with
    | .ok (.yielded value resumeAt) =>
      exact blocks.congr rfl rfl fun _ _ _ member => by cases member
    | .ok (.returned value) => exact .empty rfl
    | .error error => exact .empty rfl
  | borrows isMain unfinished free =>
    refine blocks.congr rfl rfl fun _ _ _ member => ?_
    cases member with
    | tail _ member => exact member
  | pushes isMain grows => exact blocks.keeps grows.keeps
  | releases => exact blocks.congr rfl rfl fun _ _ _ => List.mem_cons_of_mem _
  | callsTop allowed isMain unfinished admitted prepared =>
    obtain ⟨_, rfl⟩ := handled.shaped
    have frames : _ = [] := (tiered.inUse (.inl isMain)).whole unfinished.whole
    refine Blocks.call ?_ prepared ?_ (fun _ _ _ member => by simp at member) countable _
    · exact blocks.congr rfl rfl fun _ _ _ member => member
    · exact (congrArg floorOn frames).trans_le (Nat.zero_le _)
  | holds before after => exact blocks.congr rfl rfl fun _ _ _ member => member
  | born other newborn =>
    obtain ⟨parent, closure, rfl⟩ := newborn
    exact .empty rfl

/-- Before the last move of a step no frame has been opened, so that only the stacks that the step
leaves have to be small enough. -/
theorem Course.blocks {before after : Seen} (course : Course rules id before after)
    (sound : Sound rules id before)
    (countable : Countable before.coroutine.processor after.coroutine.processor)
    (blocks : Blocks rules.chunk before.marks before.coroutine.processor) :
    Blocks rules.chunk after.marks after.coroutine.processor := by
  induction course with
  | stays => exact blocks
  | moves earlier ready move inductionHypothesis =>
    have middle := Moves.sound earlier.toMoves sound
    exact move.blocks middle.handled middle.tiered middle.supplied.roomy.room
      (countable.imp_left fun same => same.trans ready.frames.symm)
      (inductionHypothesis (.inl ready.frames))

/-! ### Runs -/

variable {W : Type} {host : Host W}

/-- No stack holds more values than a number of arguments can tell. -/
def Machine.Countable (machine : Machine W) : Prop :=
  ∀ id, (machine.store.processor id).values.height ≤ 2 ^ 53

/-- A stack that may not hold more never does. -/
theorem Machine.Sound.countable {allowances : Allowances} {machine : Machine W}
    (sound : machine.Sound allowances) (small : machine.store.settings.valueCapacity ≤ 2 ^ 53) :
    machine.Countable := fun id => (sound.coroutines id).supplied.roomy.height.trans small

/-- In a run on whose stacks there are never more values than can be counted, every coroutine has
its blocks. The induction is on the run, so that the condition is asked of each machine on the way
and not of the capacity. -/
theorem blocks_of_leads {settings : Settings} {thread : ThreadId} {world : W}
    {operations : List Operation} {machine : Machine W}
    (leads : Machine.LeadsWhile host Machine.Countable (.new (.initial chunk settings thread) world)
      operations machine) (id : CoroutineId) :
    Blocks chunk (marks id machine.pending) (machine.store.processor id) := by
  have start : Machine.Reachable host (.initial chunk settings thread) []
      (.new (.initial chunk settings thread) world) := ⟨world, .stays⟩
  have same : machine.store.chunk = chunk :=
    (reachable_sound (guardsAllowed host _) ⟨world, leads.leads⟩).2.chunk
  have blocks :
      Blocks machine.store.chunk (marks id machine.pending) (machine.store.processor id) := by
    refine leads.keeps (fun machine => Blocks machine.store.chunk (marks id machine.pending)
      (machine.store.processor id)) start ?_ (.empty ?_)
    · intro allowances before after sound advances _ countable blocks
      rw [advances.lasts.chunk]
      exact (advances.courses id).blocks (sound.coroutines id) (.inr (countable id)) blocks
    · cases id <;> rfl
  rwa [same] at blocks

end CoroutineVM
