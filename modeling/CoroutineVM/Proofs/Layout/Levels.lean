import CoroutineVM.Proofs.Layout.Stacks

/-!
# Frames alone

Which frames a coroutine has does not depend on its values, and so it can be told without knowing
whether numbers of arguments are recorded exactly. Every entry that waits to be closed has a level
of frames: the outermost one gives its result to the host and every other one to an instruction. A
return that does not find its arguments loses a frame, but then its entry has come to an end.
-/

namespace CoroutineVM

open Processor

variable {rules : Rules} {id : CoroutineId}

/-- The frames of one entry, innermost first. -/
def Level : List Frame → Prop
  | [] => False
  | [frame] => frame.returnPoint = .host
  | frame :: next :: rest =>
    (∃ pointer, frame.returnPoint = .instruction pointer) ∧ Level (next :: rest)

namespace Level

variable {frame : Frame} {rest frames : List Frame}

/-- A level has a frame at least, the one that its entry has put there. -/
theorem ne_nil (level : Level frames) : frames ≠ [] := by
  rintro rfl
  exact level

/-- A frame that returns to an instruction may be put on a level. -/
theorem cons {pointer : Nat} (level : Level rest)
    (returns : frame.returnPoint = .instruction pointer) :
    Level (frame :: rest) := by
  cases rest with
  | nil => exact level.elim
  | cons next rest => exact ⟨⟨pointer, returns⟩, level⟩

/-- It may be taken away again, because it was not the outermost one of the level. -/
theorem tail {pointer : Nat} (level : Level (frame :: rest))
    (returns : frame.returnPoint = .instruction pointer) : Level rest := by
  cases rest with
  | nil => cases returns.symm.trans level
  | cons next rest => exact level.2

/-- The only frame whose result goes to the host is the outermost one. -/
theorem outermost (level : Level frames) : ∃ inner bottom, frames = inner ++ [bottom] ∧
    bottom.returnPoint = .host ∧ ∀ frame ∈ inner, frame.returnPoint ≠ .host := by
  induction frames with
  | nil => exact level.elim
  | cons frame rest inductionHypothesis =>
    cases rest with
    | nil => exact ⟨[], frame, rfl, level, fun _ member => by cases member⟩
    | cons next rest =>
      obtain ⟨⟨pointer, returns⟩, below⟩ := level
      obtain ⟨inner, bottom, split, entered, others⟩ := inductionHypothesis below
      refine ⟨frame :: inner, bottom, by rw [split]; rfl, entered, ?_⟩
      refine List.forall_mem_cons.mpr ⟨?_, others⟩
      rw [returns]
      exact ReturnPoint.noConfusion

end Level

/-- Every entry that waits to be closed has its level. -/
def Leveled : List Mark → List Frame → Prop
  | [], frames => frames = []
  | .call _ frameHeight _ :: rest, frames =>
    ∃ inner outer, frames = inner ++ outer ∧ outer.length = frameHeight ∧ Level inner ∧
      Leveled rest outer
  | .resume _ :: _, frames => Level frames
  | .wake :: rest, frames | .borrow :: rest, frames => Leveled rest frames

/-- The levels below that of the innermost entry are there. -/
def Underlaid : List Mark → List Frame → Prop
  | .call _ frameHeight _ :: rest, frames =>
    ∃ inner outer, frames = inner ++ outer ∧ outer.length = frameHeight ∧ Leveled rest outer
  | [], _ | .resume _ :: _, _ | .wake :: _, _ | .borrow :: _, _ => True

variable {marks : List Mark} {frames : List Frame}

/-- What an entry stands on is there while its own level is. -/
theorem Leveled.underlaid (leveled : Leveled marks frames) : Underlaid marks frames := by
  cases marks with
  | nil => trivial
  | cons mark rest =>
    cases mark with
    | call valueHeight frameHeight mayYield =>
      obtain ⟨inner, outer, split, length, _, below⟩ := leveled
      exact ⟨inner, outer, split, length, below⟩
    | _ => trivial

/-- Code runs on a level, which may be exchanged for another one. So an instruction need only be
followed on the innermost level. -/
theorem Leveled.level (leveled : Leveled marks frames) (driven : Driven marks) :
    ∃ inner outer, frames = inner ++ outer ∧ Level inner ∧
      (∀ other, Level other → Leveled marks (other ++ outer)) ∧
      ∀ other, Underlaid marks (other ++ outer) := by
  cases marks with
  | nil => exact driven.elim
  | cons mark rest =>
    cases mark with
    | call valueHeight frameHeight mayYield =>
      obtain ⟨inner, outer, split, length, level, below⟩ := leveled
      exact ⟨inner, outer, split, level,
        fun other exchanged => ⟨other, outer, rfl, length, exchanged, below⟩,
        fun other => ⟨other, outer, rfl, length, below⟩⟩
    | resume before =>
      refine ⟨frames, [], (List.append_nil _).symm, leveled, ?_, fun _ => trivial⟩
      intro other exchanged
      rw [List.append_nil]
      exact exchanged
    | wake => exact driven.elim
    | borrow => exact driven.elim

/-- Without the top frame the levels below are still there. -/
theorem Leveled.tail (leveled : Leveled marks frames) (driven : Driven marks) :
    Underlaid marks frames.tail := by
  obtain ⟨inner, outer, rfl, level, _, remains⟩ := leveled.level driven
  rw [List.tail_append_of_ne_nil level.ne_nil]
  exact remains _

/-! ### Coroutines in use -/

namespace Standing

/-- The segment of the innermost entry is needed later. -/
def Whole : Standing → Prop
  | .coding _ | .hosting | .apart | .ending (.ok (.yielded _ _)) => True
  | .ending (.ok (.returned _)) | .ending (.error _) => False

/-- An entry that has come to no end has all of its frames. -/
theorem Unfinished.whole {standing : Standing} (unfinished : standing.Unfinished) :
    standing.Whole := by
  cases standing with
  | ending outcome => exact unfinished.elim
  | _ => trivial

end Standing

/-- The frames of a coroutine in use are as its marks tell. -/
structure Framework (seen : Seen) : Prop where
  whole : seen.standing.Whole → Leveled seen.marks seen.coroutine.processor.activeFrames
  below : Underlaid seen.marks seen.coroutine.processor.activeFrames

/-- A coroutine whose frames are in levels is as it should be, whether an entry goes on or has
ended. -/
theorem Framework.of_leveled {seen : Seen}
    (leveled : Leveled seen.marks seen.coroutine.processor.activeFrames) : Framework seen :=
  ⟨fun _ => leveled, leveled.underlaid⟩

/-- Where an entry has ended its own level may be incomplete. -/
theorem Framework.of_underlaid {seen : Seen} (ended : ¬ seen.standing.Whole)
    (underlaid : Underlaid seen.marks seen.coroutine.processor.activeFrames) : Framework seen :=
  ⟨fun whole => absurd whole ended, underlaid⟩

/-- An entry from the host adds one frame or none. -/
theorem entered_frames {chunk : Chunk} {callee : Option Value} {arguments : List Value}
    {start processor : Processor} {entered : Except ScriptError Nat}
    (prepared : enterFromHost chunk callee arguments start = (entered, processor)) :
    (∃ pointer frame, entered = .ok pointer ∧ processor.activeFrames = frame :: start.activeFrames ∧
        frame.returnPoint = .host) ∨
      ∃ error, entered = .error error ∧ processor.activeFrames = start.activeFrames := by
  obtain ⟨pointer, rfl, _, _, frame, _, opened, returns, _⟩ | ⟨error, rfl, grows, _⟩ :=
    (enterFromHost_ends chunk callee arguments start).either prepared
  · exact .inl ⟨pointer, frame, rfl, opened.activeFrames, returns⟩
  · exact .inr ⟨error, rfl, activeFrames_congr grows.frames⟩

/-- A call that has been prepared has put a level of one frame on those of its processor, or has
failed and put nothing there. -/
theorem framework_call {chunk : Chunk} {callee : Option Value} {arguments : List Value}
    {start processor : Processor} {entered : Except ScriptError Nat} {coroutine : Coroutine}
    {valueHeight frameHeight : Nat} {mayYield : Bool}
    (prepared : enterFromHost chunk callee arguments start = (entered, processor))
    (outer : frameHeight = start.frames.height) (lower : Leveled marks start.activeFrames) :
    Framework ⟨{ coroutine with processor := processor },
      .call valueHeight frameHeight mayYield :: marks, .entered entered⟩ := by
  subst outer
  obtain ⟨pointer, frame, rfl, active, returns⟩ | ⟨error, rfl, active⟩ := entered_frames prepared
  · exact .of_leveled ⟨[frame], start.activeFrames, active, length_activeFrames _, returns, lower⟩
  · exact .of_underlaid id ⟨[], start.activeFrames, active, length_activeFrames _, lower⟩

/-- The moves of a coroutine in use keep its frames in levels. A frame is put on the innermost level
or taken from it, and a call puts a level of its own on top until it is closed. -/
theorem Inner.framework {before after : Seen} (move : Inner rules before after)
    (framework : Framework before) : Framework after := by
  have same : ∀ {start finish : Processor}, Keeps start finish →
      finish.activeFrames = start.activeFrames := fun keeps => activeFrames_congr keeps.frames
  cases move with
  | executes driven effect =>
    have leveled := framework.whole trivial
    cases effect with
    | opens keeps opened exact returns =>
      obtain ⟨inner, outer, split, level, exchange, _⟩ := leveled.level driven
      refine .of_leveled ?_
      dsimp only at split ⊢
      rw [opened.activeFrames, same keeps, split]
      exact exchange (_ :: inner) (level.cons returns)
    | drops keeps framed dropped returns =>
      obtain ⟨inner, outer, split, level, exchange, _⟩ := leveled.level driven
      obtain ⟨frame, rest, rfl⟩ := List.exists_cons_of_ne_nil level.ne_nil
      have isTop := framed.top
      dsimp only at split
      rw [top_activeFrames, same keeps, split] at isTop
      cases isTop
      refine .of_leveled ?_
      dsimp only
      rw [dropped.activeFrames, same keeps, split]
      exact exchange rest (level.tail returns)
    | leaves keeps framed dropped returns =>
      refine .of_underlaid id ?_
      dsimp only
      rw [dropped.activeFrames, same keeps]
      exact leveled.tail driven
    | stays keeps => exact .of_leveled ((same keeps).symm ▸ leveled)
    | yields keeps permitted => exact .of_leveled ((same keeps).symm ▸ leveled)
    | callsHost keeps => exact .of_leveled ((same keeps).symm ▸ leveled)
    | resumes keeps => exact .of_leveled ((same keeps).symm ▸ leveled)
  | falters driven effect allowed =>
    have leveled := framework.whole trivial
    cases effect with
    | keeps keeps => exact .of_leveled ((same keeps).symm ▸ leveled)
    | loses keeps lost =>
      refine .of_underlaid id ?_
      dsimp only
      rw [lost.activeFrames, same keeps]
      exact leveled.tail driven
  | works driven keeps unfinished reaches =>
    exact .of_leveled ((same keeps).symm ▸ framework.whole unfinished.whole)
  | leaves unfinished => exact .of_leveled (framework.whole unfinished.whole)
  | calls used unfinished admitted prepared =>
    exact framework_call prepared rfl (framework.whole unfinished.whole)
  | @closesCall coroutine valueHeight _ mayYield =>
    obtain ⟨inner, outer, split, rfl, below⟩ := framework.below
    rw [← activeFrames_restore split valueHeight mayYield] at below
    exact .of_leveled below
  | waits driven unfinished running => exact .of_leveled (framework.whole unfinished.whole)
  | wakes => exact .of_leveled (framework.whole trivial)
  | guarded allowed operated => exact ⟨framework.whole, framework.below⟩

/-! ### Coroutines at rest -/

/-- The frames of a coroutine, in use or at rest. One that has yielded keeps its level, and any
other has empty stacks while nobody waits on it. -/
structure Tiered (id : CoroutineId) (seen : Seen) : Prop where
  inUse : id = Store.main ∨ seen.marks ≠ [] → Framework seen
  empty : id ≠ Store.main → seen.marks = [] → seen.coroutine.processor.savedPointer = none →
    seen.coroutine.processor.values.toList = [] ∧ seen.coroutine.processor.activeFrames = []
  paused : id ≠ Store.main → seen.marks = [] → seen.coroutine.processor.savedPointer ≠ none →
    Level seen.coroutine.processor.activeFrames

/-- The script's own processor is never suspended, so that its frames matter while somebody uses
it. -/
theorem Tiered.ofMain {seen : Seen} (isMain : id = Store.main) (framework : Framework seen) :
    Tiered id seen :=
  ⟨fun _ => framework, fun other => absurd isMain other, fun other => absurd isMain other⟩

/-- A coroutine with marks is in use, so that nothing is asked of it as one at rest. -/
theorem Tiered.ofMarked {seen : Seen} (marked : seen.marks ≠ []) (framework : Framework seen) :
    Tiered id seen :=
  ⟨fun _ => framework, fun _ unmarked => absurd unmarked marked,
    fun _ unmarked => absurd unmarked marked⟩

/-- A resume goes on with the level that was left at a yield, or it begins one on nothing. If it has
nothing to go on with, or no room, its entry has come to an end already. -/
theorem Processor.ResumeEntry.framework {chunk : Chunk} {arguments : List Value}
    {before after : Processor} {entered : Except ScriptError Nat} {status found : CoroutineStatus}
    {access : Access} {parent : Option CoroutineId}
    (entry : ResumeEntry chunk arguments before entered after)
    (empty : before.savedPointer = none → before.activeFrames = [])
    (paused : before.savedPointer ≠ none → Level before.activeFrames) :
    Framework ⟨⟨status, access, parent, after⟩, [.resume found], .entered entered⟩ := by
  cases entry with
  | continues saved grows values =>
    have level := paused (by simp [saved])
    have same : after.activeFrames = before.activeFrames := activeFrames_congr grows.frames
    exact .of_leveled (same.symm ▸ level)
  | overflows saved grows own => exact .of_underlaid id trivial
  | starts fresh closure prepared =>
    obtain ⟨pointer, frame, rfl, active, returns⟩ | ⟨error, rfl, _⟩ := entered_frames prepared
    · have alone : after.activeFrames = [frame] := active.trans (congrArg _ (empty fresh))
      exact .of_leveled (alone.symm ▸ returns)
    · exact .of_underlaid id trivial
  | spent fresh closure => exact .of_underlaid id trivial

/-- Every move keeps this, also those by which a coroutine comes into use or is put to rest: what it
is suspended with is what a resume finds. -/
theorem Move.tiered {before after : Seen} (move : Move rules id before after)
    (handled : Handled id before) (tiered : Tiered id before) : Tiered id after := by
  cases move with
  | inner move =>
    refine ⟨fun inUse => ?_, fun other unmarked => ?_, fun other unmarked => ?_⟩
    · rw [← move.marked_iff handled] at inUse
      exact move.framework (tiered.inUse inUse)
    · obtain ⟨idle, guard, same⟩ := move.rests handled unmarked
      rw [same]
      exact tiered.empty other idle
    · obtain ⟨idle, guard, same⟩ := move.rests handled unmarked
      rw [same]
      exact tiered.paused other idle
  | resumes unfinished resumable free admitted prepared =>
    obtain rfl := handled.unmarked_of_free free
    have other := handled.other_of_resumable resumable
    refine .ofMarked (by simp) ?_
    exact (resumeEntry_of_prepared prepared).framework
      (fun fresh => (tiered.empty other rfl fresh).2)
      (tiered.paused other rfl)
  | @closesResume coroutine status marks outcome =>
    obtain ⟨other, resumable, rfl⟩ := handled.shaped
    have framework := tiered.inUse (.inr (by simp))
    have unused : ¬ (id = Store.main ∨ ([] : List Mark) ≠ []) := by simp [other]
    match outcome with
    | .ok (.yielded value resumeAt) =>
      refine ⟨fun inUse => absurd inUse unused, fun _ _ unsaved => ?_,
        fun _ _ _ => framework.whole trivial⟩
      cases unsaved
    | .ok (.returned value) =>
      exact ⟨fun inUse => absurd inUse unused, fun _ _ _ => ⟨rfl, rfl⟩,
        fun _ _ saved => absurd rfl saved⟩
    | .error error =>
      exact ⟨fun inUse => absurd inUse unused, fun _ _ _ => ⟨rfl, rfl⟩,
        fun _ _ saved => absurd rfl saved⟩
  | borrows isMain unfinished free =>
    exact .ofMain isMain (.of_leveled ((tiered.inUse (.inl isMain)).whole unfinished.whole))
  | pushes isMain grows =>
    have leveled := (tiered.inUse (.inl isMain)).whole trivial
    exact .ofMain isMain (.of_leveled ((activeFrames_congr grows.frames).symm ▸ leveled))
  | releases =>
    have isMain := handled.shaped.1
    exact .ofMain isMain (.of_leveled ((tiered.inUse (.inl isMain)).whole trivial))
  | callsTop allowed isMain unfinished admitted prepared =>
    have leveled := (tiered.inUse (.inl isMain)).whole unfinished.whole
    exact .ofMain isMain (framework_call prepared rfl leveled)
  | holds before after =>
    exact ⟨fun inUse => ⟨(tiered.inUse inUse).whole, (tiered.inUse inUse).below⟩, tiered.empty,
      tiered.paused⟩
  | born other newborn =>
    obtain ⟨parent, closure, rfl⟩ := newborn
    exact ⟨fun inUse => absurd rfl (inUse.resolve_left other), fun _ _ _ => ⟨rfl, rfl⟩,
      fun _ _ saved => absurd rfl saved⟩

end CoroutineVM
