import CoroutineVM.Proofs.Machine.Runs

/-!
# What code finds on its stacks

Code takes it for granted that its frame is there, that the number of its arguments lies in the slot
below its base and the arguments below that, and that a return may drop all of them. None of this is
checked before code runs. It holds all the same, of every frame on the stack and not only of the top
one, whatever instructions the chunk has and whatever the host does between them.

The segments of a coroutine, one on top of the other, make a tower in which every frame stands on
the next outer one. The first part puts the segments together, and the second one reads the tower by
height.
-/

namespace CoroutineVM

open Processor

/-- The height that the next frame over these may not go below. -/
def floorOn : List Frame → Nat
  | [] => 0
  | frame :: _ => frame.base

/-- The floor on a frame is its base. -/
theorem floorOn_cons (frame : Frame) (rest : List Frame) :
    floorOn (frame :: rest) = frame.base := rfl

/-- The base of a processor is that of its innermost frame, and the ground if it has none. -/
theorem base_eq_floorOn (processor : Processor) :
    processor.base = floorOn processor.activeFrames := by
  rw [base, top_activeFrames]
  cases processor.activeFrames <;> rfl

/-- Frames, innermost first, each of which stands on the next outer one; the outermost frame was
entered by the host. -/
def Tower (chunk : Chunk) (lenient : Prop) (values : List Value) : List Frame → Prop
  | [] => True
  | frame :: rest => Stands chunk (lenient ∧ rest = []) (floorOn rest) values frame ∧
    (rest = [] → frame.returnPoint = .host) ∧ Tower chunk lenient values rest

variable {chunk : Chunk} {lenient : Prop} {values : List Value} {frames : List Frame}

/-! ### Segments on top of each other -/

/-- A frame that stands on some height stands on every lower one, and under weaker conditions. -/
theorem Stands.weaken {loose : Prop} {floor lower : Nat} {frame : Frame}
    (stands : Stands chunk loose floor values frame) (allowed : loose → lenient)
    (below : lower ≤ floor) : Stands chunk lenient lower values frame := by
  obtain ⟨count, callee, window⟩ := stands
  have deep := window.deep
  refine ⟨count, callee, { window with deep := by omega, called := ?_ }⟩
  exact window.called.imp_right fun collapsed => ⟨allowed collapsed.1, collapsed.2⟩

/-- Values that are put on top of others do not move those below. -/
theorem Tower.of_take {height : Nat} (tower : Tower chunk lenient (values.take height) frames) :
    Tower chunk lenient values frames := by
  have kept : ∀ {index : Nat} {value : Value}, (values.take height)[index]? = some value →
      values[index]? = some value := by
    intro index value found
    rw [List.getElem?_take] at found
    split at found
    · exact found
    · cases found
  induction frames with
  | nil => trivial
  | cons frame rest inductionHypothesis =>
    obtain ⟨⟨count, callee, window⟩, entered, below⟩ := tower
    refine ⟨⟨count, callee, { window with counted := ?_, placed := ?_ }⟩, entered,
      inductionHypothesis below⟩
    · exact kept window.counted
    · exact kept window.placed

/-- A segment goes on top of a tower whose top frame its floor is not below. The induction is on the
segment, each frame of which stands on the next one. -/
theorem Segment.tower {loose : Prop} {floor : Nat} {inner outer : List Frame}
    (segment : Segment chunk loose floor values inner) (tower : Tower chunk lenient values outer)
    (allowed : loose → lenient ∧ outer = []) (above : floorOn outer ≤ floor) :
    Tower chunk lenient values (inner ++ outer) := by
  induction inner with
  | nil => exact segment.elim
  | cons frame rest inductionHypothesis =>
    cases rest with
    | nil =>
      obtain ⟨returns, stands⟩ := segment
      exact ⟨stands.weaken allowed above, fun _ => returns, tower⟩
    | cons next rest =>
      obtain ⟨_, stands, below⟩ := segment
      exact ⟨stands.weaken False.elim (Nat.le_refl _), (fun outermost => by cases outermost),
        inductionHypothesis below⟩

/-- The floor on a tower is among its values. -/
theorem Tower.floorOn_le (tower : Tower chunk lenient values frames) :
    floorOn frames ≤ values.length := by
  cases frames with
  | nil => exact Nat.zero_le _
  | cons frame rest =>
    obtain ⟨⟨count, callee, window⟩, _⟩ := tower
    exact window.height

/-- The segments of a coroutine make a tower. Only its outermost frame may have a callee that merely
collapses to its closure, and only on the script's own processor. -/
theorem Ground.Intact.tower {rules : Rules} {id : CoroutineId} {marks : List Mark}
    (shaped : Shaped id marks) (marked : marks ≠ [])
    (intact : rules.ground.Intact marks values frames) :
    Tower rules.chunk (rules.fromTop ∧ id = Store.main) values frames := by
  induction marks generalizing values frames with
  | nil => exact absurd rfl marked
  | cons mark rest inductionHypothesis =>
    cases mark with
    | call valueHeight frameHeight mayYield =>
      obtain ⟨inner, outer, rfl, _, segment, below⟩ := intact
      obtain ⟨usable, shaped⟩ := shaped
      have tower := inductionHypothesis shaped usable.ne_nil below
      have height := tower.floorOn_le
      rw [List.length_take] at height
      refine segment.tower tower.of_take ?_ (by omega)
      rintro ⟨fromTop, rfl⟩
      exact ⟨⟨fromTop, shaped.1⟩, below⟩
    | resume before =>
      have tower : Tower rules.chunk (rules.fromTop ∧ id = Store.main) values (frames ++ []) :=
        Segment.tower intact trivial False.elim (Nat.le_refl _)
      rwa [List.append_nil] at tower
    | wake =>
      obtain ⟨_, driven, shaped⟩ := shaped
      exact inductionHypothesis shaped driven.ne_nil intact
    | borrow =>
      obtain ⟨_, rfl⟩ := shaped
      have none : frames = [] := intact
      exact none ▸ trivial

/-! ### The tower by height -/

/-- The height that the frame at this place, counted from the bottom, may not go below. -/
def floorAt (frames : List Frame) : Nat → Nat
  | 0 => 0
  | below + 1 => (frames[below]?.map Frame.base).getD 0

/-- A tower without its inner frames is one, since each frame speaks of the next outer one only. -/
theorem Tower.outer {inner outer : List Frame}
    (tower : Tower chunk lenient values (inner ++ outer)) : Tower chunk lenient values outer := by
  induction inner with
  | nil => exact tower
  | cons frame rest inductionHypothesis => exact inductionHypothesis tower.2.2

/-- Read by height, the floor of a frame is the base of the one below it. -/
theorem floorOn_reverse_take {index : Nat} (inside : index ≤ frames.length) :
    floorOn (frames.take index).reverse = floorAt frames index := by
  cases index with
  | zero => rfl
  | succ below =>
    have present : below < frames.length := inside
    rw [List.take_succ_eq_append_getElem present, List.reverse_append, floorAt,
      List.getElem?_eq_getElem present]
    rfl

/-- The frame at a place in a tower, counted from the bottom, stands on the base of the one below it
and returns to the host if it is the lowest one. -/
theorem Tower.atPlace (tower : Tower chunk lenient values frames.reverse) {index : Nat}
    {frame : Frame} (found : frames[index]? = some frame) :
    Stands chunk (lenient ∧ index = 0) (floorAt frames index) values frame ∧
      (index = 0 → frame.returnPoint = .host) := by
  obtain ⟨inside, rfl⟩ := List.getElem?_eq_some_iff.mp found
  have split : frames.reverse =
      (frames.drop (index + 1)).reverse ++ frames[index] :: (frames.take index).reverse := by
    have whole := congrArg List.reverse (List.take_append_drop index frames)
    rw [List.drop_eq_getElem_cons inside, List.reverse_append, List.reverse_cons,
      List.append_assoc] at whole
    exact whole.symm
  rw [split] at tower
  obtain ⟨stands, entered, _⟩ := tower.outer
  have outermost : (frames.take index).reverse = [] ↔ index = 0 := by
    simp only [List.reverse_eq_nil_iff, List.take_eq_nil_iff]
    constructor
    · rintro (zero | rfl)
      · exact zero
      · cases inside
    · exact .inl
  rw [outermost, floorOn_reverse_take (Nat.le_of_lt inside)] at stands
  exact ⟨stands, fun zero => entered (outermost.mpr zero)⟩

/-- What code may rely on, of every frame from the bottom up: the bottom frame was entered by the
host; below the base of each lie its callee, its arguments and their number, not below the base of
the frame before; and the values go up to the base of the top frame. Where `lenient` holds the
callee of the bottom frame may be a value that collapses to its closure. -/
structure InOrder (chunk : Chunk) (lenient : Prop) (processor : Processor) : Prop where
  bottom : ∃ frame, processor.frames.toList.head? = some frame ∧ frame.returnPoint = .host
  windows : ∀ index frame, processor.frames.toList[index]? = some frame → ∃ count callee,
    Window chunk (lenient ∧ index = 0) (floorAt processor.frames.toList index)
      processor.values.toList frame count callee
  top : processor.base ≤ processor.values.height

/-- A tower of one frame at least is in order, told by height. -/
theorem Tower.inOrder {processor : Processor} (entered : processor.activeFrames ≠ [])
    (tower : Tower chunk lenient processor.values.toList processor.activeFrames) :
    InOrder chunk lenient processor := by
  refine ⟨?_, fun index frame found => (tower.atPlace found).1, ?_⟩
  · cases frames : processor.frames.toList with
    | nil => exact absurd (by rw [activeFrames, frames]; rfl) entered
    | cons frame rest =>
      have found : processor.frames.toList[0]? = some frame := by rw [frames]; rfl
      exact ⟨frame, rfl, (tower.atPlace found).2 rfl⟩
  · cases active : processor.activeFrames with
    | nil => exact absurd active entered
    | cons frame rest =>
      rw [active] at tower
      exact base_activeFrames active ▸ tower.floorOn_le

/-! ### What follows for code -/

section

variable {processor : Processor}

/-- Pushing fails for want of room only. -/
theorem push_overflows (value : Value) (before : Processor) :
    (push value).Ends before (fun _ _ => True)
      (fun error _ => ∃ capacity, error = .stackOverflow capacity) := by
  by_cases full : before.values.isFull = true
  · exact Attempt.ends_error (if_pos full) ⟨_, rfl⟩
  · exact Attempt.ends_ok (if_neg full) trivial

/-- Binding parameters can fail in one way only, which is that there is no room for them. -/
theorem pushParameters_overflows (given : List Value) (parameters : Nat) (before : Processor) :
    (pushParameters given parameters).Ends before (fun _ _ => True)
      (fun error _ => ∃ capacity, error = .stackOverflow capacity) := by
  induction parameters generalizing given before with
  | zero => exact Attempt.ends_pure trivial
  | succ parameters inductionHypothesis =>
    exact Attempt.ends_bind (push_overflows _ before) fun _ middle _ =>
      inductionHypothesis _ middle

/-- A frame finds the number of its arguments. -/
theorem argumentCount_window {floor count : Nat} {frame : Frame} {callee : Value}
    (window : Window chunk lenient floor processor.values.toList frame count callee) :
    argumentCount frame processor = (.ok count, processor) := by
  have counted := window.reads
  rw [← BoundedStack.get?_eq] at counted
  simp only [argumentCount, Attempt.check, counted]

/-- What is certain about the frames of a processor whose code is about to go on. The slot of a
number of arguments does not wrap around, the arguments lie among the values, and neither copying
arguments nor returning goes looking for them in vain. -/
structure Serviceable (chunk : Chunk) (processor : Processor) : Prop where
  frame : ∃ frame, currentFrame processor = (.ok frame, processor)
  arguments : ∀ frame ∈ processor.frames.toList, ∃ count,
    argumentCount frame processor = (.ok count, processor) ∧ frame.countSlot + 1 = frame.base ∧
      count ≤ frame.countSlot ∧ frame.countSlot < processor.values.height
  copies : ∀ slot after,
    copyArguments chunk processor ≠ (.error (.invalidStackAccess slot), after)
  returns : ∀ results value middle, popResult results processor = (.ok value, middle) →
    ∃ frame after, popFrame middle = (.ok frame, after)

/-- So the top frame finds the number of its arguments in its slot, and the arguments below. -/
theorem InOrder.framed (inOrder : InOrder chunk lenient processor) :
    ∃ frame count, Framed processor frame count ∧ count ≤ frame.countSlot := by
  obtain ⟨bottom, isBottom, _⟩ := inOrder.bottom
  obtain ⟨top, isTop⟩ : ∃ top, processor.frames.toList.getLast? = some top := by
    cases frames : processor.frames.toList with
    | nil =>
      rw [frames] at isBottom
      cases isBottom
    | cons frame rest => exact ⟨_, List.getLast?_eq_some_getLast (List.cons_ne_nil _ _)⟩
  rw [List.getLast?_eq_getElem?] at isTop
  obtain ⟨count, callee, window⟩ := inOrder.windows _ _ isTop
  have deep := window.deep
  refine ⟨top, count, ⟨?_, ?_, by omega⟩, ?_⟩
  · rw [BoundedStack.top?_eq, List.getLast?_eq_getElem?]
    exact isTop
  · rw [BoundedStack.get?_eq]
    exact window.reads
  · rw [Frame.countSlot]
    omega

/-- Whatever the code needs of its frame without a check is there: the frame, its function, the
number of its arguments, and these arguments below it. -/
theorem InOrder.serviceable (inOrder : InOrder chunk lenient processor) :
    Serviceable chunk processor := by
  obtain ⟨frame, count, framed, inside⟩ := inOrder.framed
  have current : currentFrame processor = (.ok frame, processor) := by
    simp only [currentFrame, Attempt.check, framed.top]
  have counts : argumentCount frame processor = (.ok count, processor) := by
    simp only [argumentCount, Attempt.check, framed.counted]
  refine ⟨⟨frame, current⟩, ?_, ?_, ?_⟩
  · intro other member
    obtain ⟨index, found⟩ := List.getElem?_of_mem member
    obtain ⟨own, callee, window⟩ := inOrder.windows index other found
    have deep := window.deep
    have present := (List.getElem?_eq_some_iff.mp window.counted).1
    refine ⟨own, argumentCount_window window, ?_, ?_, present⟩
    · rw [Frame.countSlot]
      omega
    · rw [Frame.countSlot]
      omega
  · have ends : (copyArguments chunk).Ends processor (fun _ _ => True)
        (fun error _ => ∀ slot, error ≠ .invalidStackAccess slot) := by
      have overflow : ∀ {error : ScriptError}, (∃ capacity, error = .stackOverflow capacity) →
          ∀ slot, error ≠ .invalidStackAccess slot := by
        rintro _ ⟨capacity, rfl⟩ slot same
        cases same
      refine Attempt.ends_bind_ok current ?_
      split
      · exact Attempt.ends_fail fun slot same => by cases same
      · refine Attempt.ends_bind_ok counts ?_
        rw [if_neg (Nat.not_lt.mpr inside)]
        refine Attempt.ends_bind_read (Attempt.ends_bind ((pushParameters_overflows _ _ _).mono
          (fun _ _ reached => reached) (fun _ _ failed => overflow failed)) fun _ middle _ => ?_)
        split
        · exact (push_overflows _ middle).mono (fun _ _ reached => reached)
            (fun _ _ failed => overflow failed)
        · exact Attempt.ends_pure trivial
    exact fun slot after failed => ends.of_error failed slot rfl
  · intro results value middle popped
    have keeps := (inWindow_popResult results processor).of_ok popped
    exact ⟨frame, _, popFrame_eq (framed.keeps keeps)⟩

end

/-- Whenever the code of a coroutine goes on, its frames are in order, so that all that code relies
on is there. This holds in every run: of any chunk, with any operations and any functions of the
host. The bound is the one up to which the number of a frame's arguments is recorded exactly,
`countOf?_countValue_of_le`. -/
theorem code_finds_frames {W : Type} {host : Host W} {chunk : Chunk} {settings : Settings}
    {thread : ThreadId} {operations : List Operation} {machine : Machine W}
    (small : settings.valueCapacity ≤ 2 ^ 53)
    (reached : Machine.Reachable host (.initial chunk settings thread) operations machine)
    {id : CoroutineId} {pointer : Nat} (coding : machine.focus = .code id pointer) :
    InOrder chunk (FromTop operations ∧ id = Store.main) (machine.store.processor id) ∧
      Serviceable chunk (machine.store.processor id) := by
  obtain ⟨sound, lasts⟩ := reachable_sound (guardsAllowed host operations) reached
  obtain ⟨store, world, focus, pending⟩ := machine
  obtain rfl : focus = .code id pointer := coding
  have fits : store.settings.valueCapacity ≤ 2 ^ 53 := by
    rw [lasts.settings]
    exact small
  obtain ⟨driven, intact⟩ := sound.coding fits
  have coroutine := sound.coroutines id
  have tower := intact.tower coroutine.handled.shaped driven.ne_nil
  have entered : (store.processor id).activeFrames ≠ [] := by
    obtain ⟨_, _, _, outer, split, segment, _⟩ := intact.segment driven
    obtain ⟨frame, rest, _, _, rfl, _⟩ := segment.top
    rw [split]
    exact List.cons_ne_nil _ _
  have inOrder := tower.inOrder entered
  have sameChunk : store.chunk = chunk := lasts.chunk
  rw [← sameChunk]
  exact ⟨inOrder, inOrder.serviceable⟩

/-- A main body that makes a closure of another function and calls it. -/
def nestedChunk : Chunk where
  functions := #[⟨"main", 0, 0, true⟩, ⟨"inner", 3, 0, false⟩]
  code := #[.makeClosure 1 [], .call 0, .ret 1, .ret 0]

/-- After two steps the inner function runs on top of the main body, and the frames of both are in
order. -/
theorem inner_code_finds_frames :
    let machine := Machine.sample .silent () nestedChunk (.call .mainBody []) 2
    machine.focus = .code Store.main 3 ∧
      InOrder nestedChunk (FromTop [.call .mainBody []] ∧ Store.main = Store.main)
        (machine.store.processor Store.main) ∧
      Serviceable nestedChunk (machine.store.processor Store.main) := by
  have coding : (Machine.sample .silent () nestedChunk (.call .mainBody []) 2).focus =
      .code Store.main 3 := by
    cbv
  exact ⟨coding, code_finds_frames (by decide) (reachable_sample ..) coding⟩

end CoroutineVM
