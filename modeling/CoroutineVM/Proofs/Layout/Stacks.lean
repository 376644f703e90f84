import CoroutineVM.Proofs.Layout.Segments
import CoroutineVM.Proofs.Machine.Supplies

/-!
# The stacks of a coroutine, told from its marks

Every call and every resume that waits to be closed has a segment of its own, and each segment
stands on what was there when its entry began. `Ground.Intact` says this of both stacks of a
coroutine, and `Ground.Torn` what remains of it when the innermost entry has come to an end: its
segment may be incomplete, but nothing that it stands on has been touched. Closing a call drops the
stacks to the heights that its mark has kept, and that is enough to get back what was there.

What the outermost mark stands on is left open. For a whole run nothing is there; for the run of a
single call it is what the call found.
-/

namespace CoroutineVM

open Processor

namespace Processor

/-- The frames, innermost first. -/
def activeFrames (processor : Processor) : List Frame := processor.frames.toList.reverse

/-- The frames, innermost first, are those of the frame stack. -/
theorem activeFrames_congr {before after : Processor} (same : after.frames = before.frames) :
    after.activeFrames = before.activeFrames := by
  rw [activeFrames, activeFrames, same]

/-- There are as many of them as the stack is high. -/
@[simp]
theorem length_activeFrames (processor : Processor) :
    processor.activeFrames.length = processor.frames.height := by
  simp [activeFrames]

/-- The first of them is the top frame. -/
theorem top_activeFrames (processor : Processor) :
    processor.frames.top? = processor.activeFrames.head? := by
  rw [BoundedStack.top?_eq, activeFrames, List.head?_reverse]

/-- Its base is that of the processor. -/
theorem base_activeFrames {processor : Processor} {frame : Frame} {rest : List Frame}
    (active : processor.activeFrames = frame :: rest) : processor.base = frame.base := by
  apply base_of_top
  rw [top_activeFrames, active]
  rfl

/-- A frame that is opened comes before those that are there. -/
theorem Opened.activeFrames {chunk : Chunk} {below arguments : List Value} {callee : Value}
    {frame : Frame} {before after : Processor}
    (opened : Opened chunk below callee arguments frame before after) :
    after.activeFrames = frame :: before.activeFrames := by
  simp [Processor.activeFrames, opened.frames]

/-- A return takes the first one away. -/
theorem Dropped.activeFrames {frame : Frame} {count : Nat} {results : List Value}
    {before after : Processor} (dropped : Dropped frame count results before after) :
    after.activeFrames = before.activeFrames.tail := by
  simp [Processor.activeFrames, dropped.frames, List.tail_reverse]

/-- So does a return that does not find its arguments. -/
theorem Lost.activeFrames {before after : Processor} (lost : Lost before after) :
    after.activeFrames = before.activeFrames.tail := by
  simp [Processor.activeFrames, lost.frames, List.tail_reverse]

/-- Dropping frames down to the height of the outer ones leaves those. -/
theorem activeFrames_restore {processor : Processor} {inner outer : List Frame}
    (split : processor.activeFrames = inner ++ outer) (valueHeight : Nat) (mayYield : Bool) :
    (restore valueHeight outer.length mayYield processor).activeFrames = outer := by
  have frames : processor.frames.toList = outer.reverse ++ inner.reverse := by
    rw [← List.reverse_append, ← split, activeFrames, List.reverse_reverse]
  have kept : (outer.reverse ++ inner.reverse).take outer.length = outer.reverse :=
    List.take_left' List.length_reverse
  simp only [activeFrames, restore, BoundedStack.toList_truncate, frames, kept,
    List.reverse_reverse]

end Processor

/-- What the marks of a coroutine do not tell about its stacks. -/
structure Ground where
  chunk : Chunk
  /-- Whether the callee of a call that goes on top of these marks may be a value that collapses to
  a closure. -/
  lenient : List Mark → Prop
  /-- What the outermost mark stands on. -/
  bottom : List Value → List Frame → Prop

/-- The ground of a whole run. A callee that collapses to a closure can lie only below the outermost
call on the script's own processor, where it was on top of the stack before. -/
def Rules.ground (rules : Rules) : Ground where
  chunk := rules.chunk
  lenient := fun marks => rules.fromTop ∧ marks = [.borrow]
  bottom := fun _ frames => frames = []

namespace Ground

/-- Every entry that waits to be closed has its segment, and stands on what was there before. -/
def Intact (ground : Ground) : List Mark → List Value → List Frame → Prop
  | [], values, frames => ground.bottom values frames
  | .call valueHeight frameHeight _ :: rest, values, frames =>
    ∃ inner outer, frames = inner ++ outer ∧ outer.length = frameHeight ∧
      Segment ground.chunk (ground.lenient rest) valueHeight values inner ∧
      ground.Intact rest (values.take valueHeight) outer
  | .resume _ :: _, values, frames => Segment ground.chunk False 0 values frames
  | .wake :: rest, values, frames | .borrow :: rest, values, frames =>
    ground.Intact rest values frames

/-- What the innermost entry stands on is there, whatever has become of its own segment. -/
def Torn (ground : Ground) : List Mark → List Value → List Frame → Prop
  | .call valueHeight frameHeight _ :: rest, values, frames =>
    ∃ inner outer, frames = inner ++ outer ∧ outer.length = frameHeight ∧
      ground.Intact rest (values.take valueHeight) outer
  | [], _, _ | .resume _ :: _, _, _ | .wake :: _, _, _ | .borrow :: _, _, _ => True

variable {ground : Ground} {marks : List Mark} {values : List Value} {frames : List Frame}

/-- Stacks that are intact hold all that an ended entry has to leave. -/
theorem Intact.torn (intact : ground.Intact marks values frames) :
    ground.Torn marks values frames := by
  cases marks with
  | nil => trivial
  | cons mark rest =>
    cases mark with
    | call valueHeight frameHeight mayYield =>
      obtain ⟨inner, outer, split, length, _, below⟩ := intact
      exact ⟨inner, outer, split, length, below⟩
    | _ => trivial

/-- Code runs on the top frame of a segment, and what its entry stands on lies below that frame. The
segment may be exchanged for one on the same floor. -/
theorem Intact.segment (intact : ground.Intact marks values frames) (driven : Driven marks) :
    ∃ loose floor inner outer, frames = inner ++ outer ∧
      Segment ground.chunk loose floor values inner ∧
      (∀ after other, after.take floor = values.take floor →
        Segment ground.chunk loose floor after other → ground.Intact marks after (other ++ outer)) ∧
      (∀ after other, after.take floor = values.take floor →
        ground.Torn marks after (other ++ outer)) := by
  cases marks with
  | nil => exact driven.elim
  | cons mark rest =>
    cases mark with
    | call valueHeight frameHeight mayYield =>
      obtain ⟨inner, outer, split, length, segment, below⟩ := intact
      refine ⟨_, valueHeight, inner, outer, split, segment, ?_, ?_⟩
      · intro after other same exchanged
        exact ⟨other, outer, rfl, length, exchanged, same.symm ▸ below⟩
      · intro after other same
        exact ⟨other, outer, rfl, length, same.symm ▸ below⟩
    | resume before =>
      refine ⟨False, 0, frames, [], (List.append_nil _).symm, intact, ?_, fun _ _ _ => trivial⟩
      intro after other _ exchanged
      rw [List.append_nil]
      exact exchanged
    | wake => exact driven.elim
    | borrow => exact driven.elim

/-- Code finds the arguments of its frame. -/
theorem Intact.exists_framed {processor : Processor}
    (intact : ground.Intact marks processor.values.toList processor.activeFrames)
    (driven : Driven marks) : ∃ frame count, Framed processor frame count := by
  obtain ⟨loose, floor, inner, outer, split, segment, _⟩ := intact.segment driven
  obtain ⟨frame, rest, _, lower, rfl, _, count, callee, window⟩ := segment.top
  have deep := window.deep
  refine ⟨frame, count, ?_, ?_, by omega⟩
  · rw [top_activeFrames, split]
    rfl
  · rw [BoundedStack.get?_eq]
    exact window.reads

/-- The frame that code runs on is the top frame of that segment. It finds its arguments and returns
where the segment says. -/
theorem Intact.framed {processor : Processor} {frame : Frame} {count : Nat}
    (intact : ground.Intact marks processor.values.toList processor.activeFrames)
    (driven : Driven marks) (framed : Framed processor frame count) :
    ∃ loose floor rest outer, processor.activeFrames = frame :: (rest ++ outer) ∧
      Segment ground.chunk loose floor processor.values.toList (frame :: rest) ∧
      (processor.values.toList[frame.countSlot]?).bind countOf? = some count ∧
      (∀ after other, after.take floor = processor.values.toList.take floor →
        Segment ground.chunk loose floor after other → ground.Intact marks after (other ++ outer)) ∧
      (∀ after other, after.take floor = processor.values.toList.take floor →
        ground.Torn marks after (other ++ outer)) := by
  obtain ⟨loose, floor, inner, outer, split, segment, exchange, remains⟩ := intact.segment driven
  obtain ⟨top, rest, _, _, rfl, _⟩ := segment.top
  have isTop := framed.top
  rw [top_activeFrames, split] at isTop
  obtain rfl : top = frame := Option.some.inj isTop
  have counted := framed.counted
  rw [BoundedStack.get?_eq] at counted
  exact ⟨loose, floor, rest, outer, split, segment, counted, exchange, remains⟩

/-! ### What instructions do to the stacks -/

section

variable {before after : Processor}

/-- Work in the window of the top frame leaves everything in its place. -/
theorem Intact.keeps (intact : ground.Intact marks before.values.toList before.activeFrames)
    (driven : Driven marks) (keeps : Keeps before after) :
    ground.Intact marks after.values.toList after.activeFrames := by
  obtain ⟨loose, floor, inner, outer, split, segment, exchange, _⟩ := intact.segment driven
  obtain ⟨frame, rest, _, _, rfl, _⟩ := segment.top
  have between := segment.base_between
  have base : before.base = frame.base := base_activeFrames split
  have same := keeps.below (base ▸ between.2)
  rw [base] at same
  rw [activeFrames_congr keeps.frames, split]
  exact exchange _ _ (take_of_take same between.1) (segment.congr same)

/-- A call instruction puts a frame on top of the one that it belongs to. The segment is longer by
one and stands on the same floor. -/
theorem Intact.opens {arguments : List Value} {callee : Value} {frame : Frame} {resumeAt : Nat}
    (intact : ground.Intact marks before.values.toList before.activeFrames) (driven : Driven marks)
    (opened : Opened ground.chunk before.values.toList callee arguments frame before after)
    (exact : callee = .closure ⟨frame.function, frame.scope⟩)
    (returns : frame.returnPoint = .instruction resumeAt) (small : after.values.height ≤ 2 ^ 53) :
    ground.Intact marks after.values.toList after.activeFrames := by
  obtain ⟨loose, floor, inner, outer, split, segment, exchange, _⟩ := intact.segment driven
  obtain ⟨top, rest, _, _, rfl, _⟩ := segment.top
  have between := segment.base_between
  have window := window_of_opened False opened small (.inl exact)
  have same : ∀ height, height ≤ before.values.toList.length →
      after.values.toList.take height = before.values.toList.take height := by
    intro height inside
    rw [opened.values, List.take_append_of_le_length inside]
  rw [opened.activeFrames, split]
  refine exchange _ (frame :: top :: rest) (same _ (by omega)) ⟨⟨resumeAt, returns⟩, ?_, ?_⟩
  · exact ⟨_, _, { window with deep := by have deep := window.deep; omega }⟩
  · exact segment.congr (same _ between.2)

/-- A return to an instruction leaves the frame that it belongs to on top. The segment is shorter by
one and stands on the same floor. -/
theorem Intact.drops {frame : Frame} {count pointer : Nat} {results : List Value}
    (intact : ground.Intact marks before.values.toList before.activeFrames) (driven : Driven marks)
    (framed : Framed before frame count) (dropped : Dropped frame count results before after)
    (returns : frame.returnPoint = .instruction pointer) :
    ground.Intact marks after.values.toList after.activeFrames := by
  obtain ⟨loose, floor, rest, outer, split, segment, counted, exchange, _⟩ :=
    intact.framed driven framed
  obtain ⟨below, above⟩ := segment.drops returns counted results
  have between := segment.base_between
  rw [dropped.activeFrames, dropped.values, split]
  refine exchange _ rest ?_ below
  rw [List.take_append_of_le_length (by rw [List.length_take]; omega), List.take_take,
    Nat.min_eq_left above]

/-- A return to the host ends a segment, and what that has stood on is there. -/
theorem Intact.leaves {frame : Frame} {count : Nat}
    (intact : ground.Intact marks before.values.toList before.activeFrames) (driven : Driven marks)
    (framed : Framed before frame count) (dropped : Dropped frame count [] before after)
    (returns : frame.returnPoint = .host) :
    ground.Torn marks after.values.toList after.activeFrames := by
  obtain ⟨loose, floor, rest, outer, split, segment, counted, _, remains⟩ :=
    intact.framed driven framed
  obtain ⟨rfl, above⟩ := segment.leaves returns counted
  rw [dropped.activeFrames, dropped.values, split]
  refine remains _ [] ?_
  rw [List.append_nil, List.take_take, Nat.min_eq_left above]

end

end Ground

end CoroutineVM
