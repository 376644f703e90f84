import CoroutineVM.Proofs.Layout.Stacks

/-!
# How much code is left

Code that never jumps back comes nearer to the end with every instruction of a function, but a call
goes on anywhere, and a return in the middle of another function. What is left is therefore counted
over all frames. Each frame owes the code from the place where it goes on, and an instruction of a
frame weighs more than all the code of a frame above it. Since there is room for so many frames
only, this is a number, and every instruction makes it smaller: a call uses up one instruction of
the caller, and a return drops what its frame still owed.
-/

namespace CoroutineVM

open Processor

/-- No jump goes back, and no instruction resumes a coroutine. -/
structure Chunk.Forward (chunk : Chunk) : Prop where
  jumps : ∀ place instruction target, chunk.instruction? place = some instruction →
    instruction.jumpTarget? = some target → place < target
  resumes : ∀ place count, chunk.instruction? place ≠ some (.resumeCoroutine count)

namespace Chunk

variable (chunk : Chunk)

/-- How many instructions there are from a place to the end of the code. -/
def left (pointer : Nat) : Nat := chunk.code.size - pointer

/-- What an instruction weighs while there is room for so many more frames. -/
def weight (room : Nat) : Nat := (chunk.code.size + 1) ^ room

/-- What is left to a frame from the place that it goes on at; a frame that the host waits for has
nobody below it. -/
def leftTo : ReturnPoint → Nat
  | .host => 0
  | .instruction pointer => chunk.left pointer

/-- What the frames below those that return to them owe, innermost first. -/
def owed (capacity : Nat) : List Frame → Nat
  | [] => 0
  | frame :: below => chunk.leftTo frame.returnPoint * chunk.weight (capacity - below.length) +
      owed capacity below

/-- A frame weighs something, even if there is no code. -/
theorem weight_pos (room : Nat) : 0 < chunk.weight room := Nat.pow_pos (Nat.succ_pos _)

/-- A frame weighs more than what can be left in one above it: by one more than the length of the
code times as much. -/
theorem weight_succ (room : Nat) :
    chunk.weight (room + 1) = (chunk.code.size + 1) * chunk.weight room :=
  Nat.pow_succ'

/-- The more room there is above a frame the more it weighs. -/
theorem weight_mono {few many : Nat} (within : few ≤ many) : chunk.weight few ≤ chunk.weight many :=
  Nat.pow_le_pow_right (Nat.succ_pos _) within

/-- No more is left than all of the code. -/
theorem left_le (pointer : Nat) : chunk.left pointer ≤ chunk.code.size := Nat.sub_le _ _

/-- Nor is more owed by a frame, wherever it returns to. -/
theorem leftTo_le (returnPoint : ReturnPoint) : chunk.leftTo returnPoint ≤ chunk.code.size := by
  cases returnPoint with
  | host => exact Nat.zero_le _
  | instruction pointer => exact chunk.left_le pointer

/-- Nothing but the code before the end can be carried out. -/
theorem left_lt {pointer next : Nat} {instruction : Instruction}
    (fetched : chunk.instruction? pointer = some instruction) (later : pointer < next) :
    chunk.left next < chunk.left pointer := by
  have inside := (Array.getElem?_eq_some_iff.mp fetched).1
  simp only [left]
  omega

/-- The frames owe less than one instruction that has all the room to itself. The induction is on
the frames, each of which owes less than what one more instruction of the next outer one weighs. -/
theorem owed_lt (capacity : Nat) {frames : List Frame} (fits : frames.length ≤ capacity) :
    chunk.owed capacity frames + chunk.weight (capacity + 1 - frames.length) ≤
      chunk.weight (capacity + 1) := by
  induction frames with
  | nil => simp [owed]
  | cons frame below inductionHypothesis =>
    simp only [List.length_cons] at fits
    have rest := inductionHypothesis (by omega)
    have room : capacity + 1 - below.length = capacity - below.length + 1 := by omega
    have less : capacity + 1 - (below.length + 1) = capacity - below.length := by omega
    have digit := Nat.mul_le_mul_right (chunk.weight (capacity - below.length))
      (chunk.leftTo_le frame.returnPoint)
    rw [room, weight_succ, Nat.add_mul] at rest
    simp only [owed, List.length_cons, less]
    omega

end Chunk

/-- A frame stack of no more frames than fit, which are no more than so many. -/
structure Processor.Fits (limit : Nat) (processor : Processor) : Prop where
  room : processor.frames.height ≤ processor.frames.capacity
  limited : processor.frames.capacity ≤ limit

/-- Work that goes by the room for frames keeps them within the limit. -/
theorem Processor.Aligned.fits {limit : Nat} {before after : Processor}
    (aligned : Aligned before after) (fits : before.Fits limit) : after.Fits limit :=
  ⟨aligned.frameRoom fits.room, aligned.frameCapacity ▸ fits.limited⟩

/-- Only the frame stack matters for that. -/
theorem Processor.Fits.congr {limit : Nat} {before after : Processor} (fits : before.Fits limit)
    (same : after.frames = before.frames) : after.Fits limit :=
  ⟨same ▸ fits.room, same ▸ fits.limited⟩

namespace Processor

/-- What is left to a processor that goes on at this place. -/
def remaining (chunk : Chunk) (pointer : Nat) (processor : Processor) : Nat :=
  chunk.left pointer * chunk.weight (processor.frames.capacity - processor.frames.height) +
    chunk.owed processor.frames.capacity processor.activeFrames

variable {chunk : Chunk} {pointer next : Nat} {before after : Processor}

/-- Nor does what remains depend on anything else. -/
theorem remaining_congr (chunk : Chunk) (pointer : Nat) (same : after.frames = before.frames) :
    after.remaining chunk pointer = before.remaining chunk pointer := by
  rw [remaining, remaining, same, activeFrames_congr same]

/-- Whatever the code is, so much is left at most. This is the number by which loops are bounded
before anything runs. -/
theorem Fits.remaining_lt {limit : Nat} {processor : Processor} (fits : processor.Fits limit)
    (chunk : Chunk) (pointer : Nat) :
    processor.remaining chunk pointer < chunk.weight (limit + 1) := by
  have few : processor.activeFrames.length ≤ processor.frames.capacity := by
    rw [length_activeFrames]
    exact fits.room
  have frames := chunk.owed_lt processor.frames.capacity few
  have room : processor.frames.capacity + 1 - processor.frames.height =
      processor.frames.capacity - processor.frames.height + 1 := by
    have within := fits.room
    omega
  have digit :=
    Nat.mul_le_mul_right (chunk.weight (processor.frames.capacity - processor.frames.height))
      (chunk.left_le pointer)
  have positive := chunk.weight_pos (processor.frames.capacity - processor.frames.height)
  have greater : chunk.weight (processor.frames.capacity + 1) ≤ chunk.weight (limit + 1) :=
    chunk.weight_mono (Nat.add_le_add_right fits.limited 1)
  rw [length_activeFrames, room, chunk.weight_succ, Nat.add_mul] at frames
  rw [remaining]
  omega

/-- The code of the top frame goes on further down. -/
theorem remaining_goes (same : after.frames = before.frames)
    (shorter : chunk.left next < chunk.left pointer) :
    after.remaining chunk next < before.remaining chunk pointer := by
  rw [remaining_congr chunk next same, remaining, remaining]
  have less := Nat.mul_lt_mul_of_pos_right shorter
    (chunk.weight_pos (before.frames.capacity - before.frames.height))
  omega

/-- All the code of a callee weighs less than the instruction that has called it, because the frame
of the caller weighs as much as a frame above it and all of its code together. -/
theorem remaining_opened {below arguments : List Value} {callee : Value} {frame : Frame}
    (opened : Opened chunk below callee arguments frame before after)
    (room : before.frames.height ≤ before.frames.capacity)
    (returns : frame.returnPoint = .instruction next)
    (shorter : chunk.left next < chunk.left pointer) (entry : Nat) :
    after.remaining chunk entry < before.remaining chunk pointer := by
  have height : after.frames.height = before.frames.height + 1 := by
    simpa using congrArg List.length opened.frames
  have fits := opened.frameRoom room
  rw [opened.frameCapacity, height] at fits
  have deeper : before.frames.capacity - before.frames.height =
      before.frames.capacity - (before.frames.height + 1) + 1 := by omega
  have callee :=
    Nat.mul_le_mul_right (chunk.weight (before.frames.capacity - (before.frames.height + 1)))
      (chunk.left_le entry)
  have caller := Nat.mul_le_mul_right (chunk.weight (before.frames.capacity - before.frames.height))
    (Nat.succ_le_of_lt shorter)
  have weight := chunk.weight_succ (before.frames.capacity - (before.frames.height + 1))
  have positive := chunk.weight_pos (before.frames.capacity - (before.frames.height + 1))
  rw [← deeper, Nat.add_mul] at weight
  rw [Nat.succ_mul] at caller
  simp only [remaining, opened.activeFrames, opened.frameCapacity, height, Chunk.owed, returns,
    Chunk.leftTo, length_activeFrames]
  omega

/-- A return goes on where the frame below was owed its rest. What remains is what that frame owed
and all below it. -/
theorem remaining_dropped {frame : Frame} {count : Nat} {results : List Value}
    (dropped : Dropped frame count results before after) (framed : Framed before frame count)
    (returns : frame.returnPoint = .instruction next) (some : 0 < chunk.left pointer) :
    after.remaining chunk next < before.remaining chunk pointer := by
  have top := framed.top
  rw [top_activeFrames] at top
  obtain ⟨below, active⟩ := List.head?_eq_some_iff.mp top
  have rest : after.activeFrames = below := by
    rw [dropped.activeFrames, active]
    rfl
  have height : after.frames.height = below.length := by
    rw [← length_activeFrames, rest]
  have positive := Nat.mul_pos some
    (chunk.weight_pos (before.frames.capacity - before.frames.height))
  simp only [remaining, rest, active, dropped.frameCapacity, height, Chunk.owed, returns,
    Chunk.leftTo]
  omega

end Processor

/-! ### One instruction -/

/-- Where code goes on after an instruction, at once or when it gets the result that it waits
for. -/
def Flow.goesOn? : Flow → Option Nat
  | .goto pointer => some pointer
  | .callHost _ _ resumeAt | .resume _ _ resumeAt => some resumeAt
  | .returned _ | .yielded _ _ => none

/-- The code goes on with less than was left. -/
def Flow.Descends (chunk : Chunk) (pointer : Nat) (flow : Flow) (before after : Processor) : Prop :=
  before.frames.height ≤ before.frames.capacity → ∀ next, flow.goesOn? = some next →
    after.remaining chunk next < before.remaining chunk pointer

namespace Store

variable {id : CoroutineId} {chunk : Chunk} {pointer : Nat}

/-- A call makes what remains smaller: the frame that is put on owes all of its code, but that
weighs less than the one instruction which the caller no longer owes. -/
theorem Opens.descends {count : Nat} {flow : Flow} {before after : Processor}
    (opens : Opens chunk count (pointer + 1) flow before after)
    (shorter : chunk.left (pointer + 1) < chunk.left pointer) :
    flow.Descends chunk pointer before after := by
  intro room next goes
  cases opens with
  | @frame _ _ _ _ middle _ taken opened returns =>
    have same : middle.frames = before.frames := taken.keeps.frames
    rw [← remaining_congr chunk pointer same]
    exact remaining_opened opened (same ▸ room) returns shorter next
  | host taken =>
    obtain rfl := Option.some.inj goes
    exact remaining_goes taken.keeps.frames shorter

/-- So does a return: the frame goes away with what it still owed, which was one instruction at
least, and what its caller owes was counted before. -/
theorem Returns.descends {results : Nat} {flow : Flow} {before after : Processor}
    (returns : Returns results (.ok flow) before after) (some : 0 < chunk.left pointer) :
    flow.Descends chunk pointer before after := by
  intro _ next goes
  cases returns with
  | host popped framed dropped back => cases goes
  | @code _ _ _ _ _ middle _ popped framed dropped back =>
    obtain rfl := Option.some.inj goes
    have same : middle.frames = before.frames :=
      ((inWindow_popResult results before).of_ok popped).frames
    rw [← remaining_congr chunk pointer same]
    exact remaining_dropped dropped framed back some

/-- So does every other instruction, which goes on in its function further down than it stands. -/
theorem Onward.descends {instruction : Instruction} {flow : Flow} {before after : Processor}
    (onward : Onward instruction (pointer + 1) flow) (keeps : Keeps before after)
    (fetched : chunk.instruction? pointer = some instruction)
    (jumps : ∀ target, instruction.jumpTarget? = some target → pointer < target) :
    flow.Descends chunk pointer before after := by
  intro _ next goes
  have shorter := chunk.left_lt fetched (Nat.lt_succ_self pointer)
  cases onward with
  | goes =>
    obtain rfl := Option.some.inj goes
    exact remaining_goes keeps.frames shorter
  | jumps isTarget =>
    obtain rfl := Option.some.inj goes
    exact remaining_goes keeps.frames (chunk.left_lt fetched (jumps _ isTarget))
  | resumes resumes =>
    obtain rfl := Option.some.inj goes
    exact remaining_goes keeps.frames shorter

/-- After every instruction that does not jump back less is left. Calls and returns move between
frames, and everything else stays in its frame and goes on further down. -/
theorem execute_descends {before : Store} (known : before.Has id) {instruction : Instruction}
    (fetched : before.chunk.instruction? pointer = some instruction)
    (jumps : ∀ target, instruction.jumpTarget? = some target → pointer < target) :
    (execute id instruction (pointer + 1)).Ends before
      (fun flow after => Touches id (flow.Descends before.chunk pointer) before after)
      (fun _ _ => True) := by
  have shorter := before.chunk.left_lt fetched (Nat.lt_succ_self pointer)
  cases instruction
  case call count =>
    exact (call_opens count (pointer + 1) known).mono
      (fun _ _ touches => touches.mono fun _ _ opens => opens.descends shorter) fun _ _ _ => trivial
  case ret count =>
    exact (leaveFrame_returns count known).mono
      (fun _ _ touches => touches.mono fun _ _ returns => returns.descends
        (Nat.zero_lt_of_lt shorter))
      fun _ _ _ => trivial
  case yield count =>
    refine (yield_effects count (pointer + 1) known).reached.mono ?_ fun _ _ _ => trivial
    rintro flow after ⟨reached, effects⟩
    obtain ⟨_, ⟨value, rfl⟩, _⟩ := (execute_yield_ends before id count (pointer + 1)).of_ok reached
    exact effects.mono fun _ _ _ _ next goes => by cases goes
  all_goals
    exact (execute_inside _ (pointer + 1) (by simp) before known).mono
      (fun _ _ reached => reached.2.mono fun _ _ keeps => reached.1.descends keeps fetched jumps)
      fun _ _ _ => trivial

end Store

end CoroutineVM
