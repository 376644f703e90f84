import CoroutineVM.Proofs.Number.ExactNaturals
import CoroutineVM.Proofs.Processor.Frames

/-!
# Frames over values

The two stacks of a processor describe each other: below the base of a frame lie the number of its
arguments, the arguments and the callee, and the callee is not below the base of the frame before. A
segment is a run of frames of which the host entered the first one and call instructions the others;
it stands on a floor, the height of the value stack that the host found. Frames are listed innermost
first here.

What a segment says about values concerns those below the base of its top frame, so that work in the
window of that frame cannot disturb it.
-/

namespace CoroutineVM

open Processor

/-- Below the base of a frame lie what it was called with and how much that was. The callee is the
closure that the frame runs; where `lenient` holds it may also be a value that collapses to it. -/
structure Window (chunk : Chunk) (lenient : Prop) (floor : Nat) (values : List Value)
    (frame : Frame) (count : Nat) (callee : Value) : Prop where
  deep : floor + count + 2 ≤ frame.base
  small : count < 2 ^ 53
  counted : values[frame.base - 1]? = some (countValue count)
  placed : values[frame.base - 2 - count]? = some callee
  called : callee = .closure ⟨frame.function, frame.scope⟩ ∨
    lenient ∧ callee.collapse = .closure ⟨frame.function, frame.scope⟩
  entryPoint : chunk.entryPoint ⟨frame.function, frame.scope⟩ = .ok frame.entryPoint

/-- A frame has a window over a floor. -/
def Stands (chunk : Chunk) (lenient : Prop) (floor : Nat) (values : List Value) (frame : Frame) :
    Prop :=
  ∃ count callee, Window chunk lenient floor values frame count callee

/-- Frames over a floor, innermost first: the host gets the result of the outermost one, and every
other one stands on the frame that called it. -/
def Segment (chunk : Chunk) (lenient : Prop) (floor : Nat) (values : List Value) : List Frame → Prop
  | [] => False
  | [frame] => frame.returnPoint = .host ∧ Stands chunk lenient floor values frame
  | frame :: next :: rest => (∃ pointer, frame.returnPoint = .instruction pointer) ∧
    Stands chunk False next.base values frame ∧ Segment chunk lenient floor values (next :: rest)

variable {chunk : Chunk} {lenient : Prop} {floor : Nat} {values : List Value}

/-- What lies below a height does not depend on what lies above it. -/
theorem getElem?_of_take {before after : List Value} {height index : Nat}
    (same : after.take height = before.take height) (inside : index < height) :
    after[index]? = before[index]? := by
  rw [← List.getElem?_take_of_lt inside, same, List.getElem?_take_of_lt inside]

/-- Lists that are the same up to a height are the same up to every lower one. -/
theorem take_of_take {before after : List Value} {height lower : Nat}
    (same : after.take height = before.take height) (inside : lower ≤ height) :
    after.take lower = before.take lower := by
  have cut := congrArg (List.take lower) same
  rwa [List.take_take, List.take_take, Nat.min_eq_left inside] at cut

namespace Window

variable {frame : Frame} {count : Nat} {callee : Value}

/-- The base of a frame is among the values. -/
theorem height (window : Window chunk lenient floor values frame count callee) :
    frame.base ≤ values.length := by
  have inside := (List.getElem?_eq_some_iff.mp window.counted).1
  have deep := window.deep
  omega

/-- A window depends on nothing but the values below the base of its frame. -/
theorem congr {after : List Value} (window : Window chunk lenient floor values frame count callee)
    (same : after.take frame.base = values.take frame.base) :
    Window chunk lenient floor after frame count callee := by
  have deep := window.deep
  refine { window with counted := ?_, placed := ?_ }
  · rw [getElem?_of_take same (by omega)]
    exact window.counted
  · rw [getElem?_of_take same (by omega)]
    exact window.placed

/-- The number of arguments can be read back. -/
theorem reads (window : Window chunk lenient floor values frame count callee) :
    (values[frame.countSlot]?).bind countOf? = some count := by
  have slot : values[frame.countSlot]? = some (countValue count) := window.counted
  rw [slot]
  exact countOf?_countValue window.small

end Window

/-- What a call puts on the values below it is a window for its frame. The bound is needed here,
where the number of the arguments is recorded. -/
theorem window_of_opened (lenient : Prop) {below arguments : List Value} {callee : Value}
    {frame : Frame} {before after : Processor}
    (opened : Opened chunk below callee arguments frame before after)
    (small : after.values.height ≤ 2 ^ 53)
    (called : callee = .closure ⟨frame.function, frame.scope⟩ ∨ lenient) :
    Window chunk lenient below.length after.values.toList frame arguments.length callee := by
  have height : after.values.height = below.length + arguments.length + 2 := by
    rw [← BoundedStack.length_toList, opened.values]
    simp only [List.length_append, List.length_cons, List.length_nil]
    omega
  have base := opened.base
  refine ⟨by omega, by omega, ?_, ?_, ?_, opened.entryPoint⟩
  · have slot : frame.base - 1 = below.length + (arguments.length + 1) := by omega
    rw [opened.values, slot, List.getElem?_append_right (Nat.le_add_right _ _),
      Nat.add_sub_cancel_left, List.getElem?_cons_succ,
      List.getElem?_append_right (Nat.le_refl _), Nat.sub_self]
    rfl
  · have slot : frame.base - 2 - arguments.length = below.length := by omega
    rw [opened.values, slot, List.getElem?_append_right (Nat.le_refl _), Nat.sub_self]
    rfl
  · cases called with
    | inl exact => exact .inl exact
    | inr lenient => exact .inr ⟨lenient, opened.called⟩

namespace Segment

variable {frame : Frame} {rest frames : List Frame}

/-- A segment has a top frame, and that frame has a window above the floor. -/
theorem top (segment : Segment chunk lenient floor values frames) :
    ∃ frame rest loose lower, frames = frame :: rest ∧ floor ≤ lower ∧
      Stands chunk loose lower values frame := by
  induction frames with
  | nil => exact segment.elim
  | cons frame rest inductionHypothesis =>
    cases rest with
    | nil => exact ⟨frame, [], lenient, floor, rfl, Nat.le_refl _, segment.2⟩
    | cons next rest =>
      obtain ⟨_, stands, below⟩ := segment
      obtain ⟨_, _, loose, lower, same, above, count, callee, window⟩ := inductionHypothesis below
      cases same
      have deep := window.deep
      exact ⟨frame, next :: rest, False, next.base, rfl, by omega, stands⟩

/-- The window of the top frame. -/
theorem stands (segment : Segment chunk lenient floor values (frame :: rest)) :
    ∃ loose lower, floor ≤ lower ∧ Stands chunk loose lower values frame := by
  obtain ⟨_, _, loose, lower, same, above, stands⟩ := segment.top
  cases same
  exact ⟨loose, lower, above, stands⟩

/-- The base of the top frame lies above the floor, among the values. -/
theorem base_between (segment : Segment chunk lenient floor values (frame :: rest)) :
    floor ≤ frame.base ∧ frame.base ≤ values.length := by
  obtain ⟨loose, lower, above, count, callee, window⟩ := segment.stands
  have deep := window.deep
  exact ⟨by omega, window.height⟩

/-- Work above the base of the top frame does not disturb a segment. -/
theorem congr {after : List Value} (segment : Segment chunk lenient floor values (frame :: rest))
    (same : after.take frame.base = values.take frame.base) :
    Segment chunk lenient floor after (frame :: rest) := by
  induction rest generalizing frame with
  | nil =>
    obtain ⟨returns, count, callee, window⟩ := segment
    exact ⟨returns, count, callee, window.congr same⟩
  | cons next rest inductionHypothesis =>
    obtain ⟨returns, ⟨count, callee, window⟩, below⟩ := segment
    have deep := window.deep
    exact ⟨returns, ⟨count, callee, window.congr same⟩,
      inductionHypothesis below (take_of_take same (by omega))⟩

/-- A return from a frame that an instruction has entered leaves a segment on the same floor, with
the results on top of it. -/
theorem drops {pointer count : Nat} (segment : Segment chunk lenient floor values (frame :: rest))
    (returns : frame.returnPoint = .instruction pointer)
    (counted : (values[frame.countSlot]?).bind countOf? = some count) (results : List Value) :
    Segment chunk lenient floor (values.take (frame.base - (count + 2)) ++ results) rest ∧
      floor ≤ frame.base - (count + 2) := by
  cases rest with
  | nil =>
    rw [segment.1] at returns
    cases returns
  | cons next rest =>
    obtain ⟨_, ⟨own, callee, window⟩, below⟩ := segment
    obtain rfl : own = count := Option.some.inj (window.reads.symm.trans counted)
    have deep := window.deep
    have height := window.height
    have between := below.base_between
    refine ⟨below.congr ?_, by omega⟩
    rw [List.take_append_of_le_length (by rw [List.length_take]; omega), List.take_take,
      Nat.min_eq_left (by omega)]

/-- A return to the host is a return from the outermost frame of a segment. -/
theorem leaves {count : Nat} (segment : Segment chunk lenient floor values (frame :: rest))
    (returns : frame.returnPoint = .host)
    (counted : (values[frame.countSlot]?).bind countOf? = some count) :
    rest = [] ∧ floor ≤ frame.base - (count + 2) := by
  cases rest with
  | nil =>
    obtain ⟨_, own, callee, window⟩ := segment
    obtain rfl : own = count := Option.some.inj (window.reads.symm.trans counted)
    have deep := window.deep
    exact ⟨rfl, by omega⟩
  | cons next rest =>
    obtain ⟨⟨pointer, instruction⟩, _⟩ := segment
    rw [instruction] at returns
    cases returns

end Segment

end CoroutineVM
