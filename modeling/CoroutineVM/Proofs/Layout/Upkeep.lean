import CoroutineVM.Proofs.Layout.Levels

/-!
# Moves keep the stacks in order

The layout of a coroutine's stacks is an invariant of its moves. While an entry goes on its segment
is whole, and so it is when a yield is about to be closed, because the coroutine will go on with it.
When an entry has come to another end, only what it stands on has to be there.

A yield is also the one end of an entry that needs a permission, and the permission is still there
when the entry is closed.
-/

namespace CoroutineVM

open Processor

variable {rules : Rules} {id : CoroutineId} {ground : Ground}

/-- The stacks of a coroutine are as its marks tell. -/
structure Laid (ground : Ground) (seen : Seen) : Prop where
  whole : seen.standing.Whole → ground.Intact seen.marks
    seen.coroutine.processor.values.toList seen.coroutine.processor.activeFrames
  below : ground.Torn seen.marks
    seen.coroutine.processor.values.toList seen.coroutine.processor.activeFrames

/-- Whoever has yielded was permitted to. -/
def Licensed (seen : Seen) : Prop :=
  ∀ value resumeAt, seen.standing = .ending (.ok (.yielded value resumeAt)) →
    seen.coroutine.processor.mayYield = true

/-- Stacks that are intact are as they should be, whether an entry goes on or has ended. -/
theorem Laid.of_intact {seen : Seen} (intact : ground.Intact seen.marks
    seen.coroutine.processor.values.toList seen.coroutine.processor.activeFrames) :
    Laid ground seen := ⟨fun _ => intact, intact.torn⟩

/-- Where an entry has ended, only what it stands on has to be there. -/
theorem Laid.of_torn {seen : Seen} (ended : ¬ seen.standing.Whole) (torn : ground.Torn seen.marks
    seen.coroutine.processor.values.toList seen.coroutine.processor.activeFrames) :
    Laid ground seen := ⟨fun whole => absurd whole ended, torn⟩

/-! ### Entries -/

section

variable {marks : List Mark} {callee : Option Value} {arguments : List Value}
  {start processor : Processor} {entered : Except ScriptError Nat} {coroutine : Coroutine}
  {valueHeight frameHeight : Nat} {mayYield : Bool}

/-- An entry from the host puts one frame on what was there when it began, but for its callee if it
found that on top. -/
theorem entered_segment {chunk : Chunk} {lenient : Prop}
    (prepared : enterFromHost chunk callee arguments start = (entered, processor))
    (small : processor.values.height ≤ 2 ^ 53)
    (stands : valueHeight = floorOfCall callee start)
    (loose : callee = none → lenient) :
    processor.values.toList.take valueHeight = start.values.toList.take valueHeight ∧
      ((∃ pointer frame, entered = .ok pointer ∧
        processor.activeFrames = frame :: start.activeFrames ∧
        Segment chunk lenient valueHeight processor.values.toList [frame]) ∨
      ∃ error, entered = .error error ∧ processor.activeFrames = start.activeFrames) := by
  obtain ⟨pointer, rfl, below, called, frame, calls, opened, returns, _⟩ | ⟨error, rfl, grows, _⟩ :=
    (enterFromHost_ends chunk callee arguments start).either prepared
  · have floor : below.length = valueHeight ∧ start.values.toList.take valueHeight = below := by
      cases callee with
      | some value =>
        obtain ⟨rfl, _⟩ := calls
        simp only [floorOfCall, Option.isSome_some, if_true, ← BoundedStack.length_toList] at stands
        rw [stands]
        exact ⟨rfl, List.take_length⟩
      | none =>
        have values : start.values.toList = below ++ [called] := calls
        simp only [floorOfCall, Option.isSome_none, Bool.false_eq_true, if_false,
          ← BoundedStack.length_toList, values] at stands
        simp [stands, values]
    have exact : called = .closure ⟨frame.function, frame.scope⟩ ∨ lenient := by
      cases callee with
      | some value =>
        obtain ⟨_, rfl⟩ := calls
        exact .inl (value.collapse_collapse.symm.trans opened.called)
      | none => exact .inr (loose rfl)
    have window := window_of_opened _ opened small exact
    refine ⟨?_, .inl ⟨pointer, frame, rfl, opened.activeFrames, returns, _, _, floor.1 ▸ window⟩⟩
    rw [opened.values, floor.2, ← floor.1, List.take_left]
  · refine ⟨grows.take ?_, .inr ⟨error, rfl, activeFrames_congr grows.frames⟩⟩
    rw [stands, floorOfCall]
    split <;> omega

/-- A call that has been prepared stands on what it goes back to, whether it has found a function to
enter or not. The number of its arguments is recorded exactly because the stack is not too high. -/
theorem laid_call
    (prepared : enterFromHost ground.chunk callee arguments start = (entered, processor))
    (small : processor.values.height ≤ 2 ^ 53)
    (stands : valueHeight = floorOfCall callee start)
    (outer : frameHeight = start.frames.height) (loose : callee = none → ground.lenient marks)
    (lower : ground.Intact marks (start.values.toList.take valueHeight) start.activeFrames) :
    Laid ground ⟨{ coroutine with processor := processor },
      .call valueHeight frameHeight mayYield :: marks, .entered entered⟩ := by
  subst outer
  obtain ⟨kept, ⟨pointer, frame, rfl, active, segment⟩ | ⟨error, rfl, active⟩⟩ :=
    entered_segment prepared small stands loose
  · exact .of_intact ⟨[frame], start.activeFrames, active, length_activeFrames _, segment,
      kept.symm ▸ lower⟩
  · exact .of_torn id ⟨[], start.activeFrames, active, length_activeFrames _, kept.symm ▸ lower⟩

end

/-! ### Moves of a coroutine in use -/

/-- The moves of a coroutine in use keep its stacks as they should be. Work is done in the window of
the top frame, calls and returns are done at its edge, and a call of the host that is closed goes
back to the height that it has stood on. -/
theorem Inner.laid {before after : Seen} (move : Inner rules before after)
    (chunk : rules.chunk = ground.chunk)
    (room : before.coroutine.processor.values.height ≤ before.coroutine.processor.values.capacity)
    (small : after.coroutine.processor.values.height ≤ 2 ^ 53)
    (laid : Laid ground before) : Laid ground after := by
  cases move with
  | executes driven effect =>
    have intact := laid.whole trivial
    rw [chunk] at effect
    cases effect with
    | stays keeps => exact .of_intact (intact.keeps driven keeps)
    | opens keeps opened exact returns =>
      exact .of_intact ((intact.keeps driven keeps).opens driven opened exact returns small)
    | drops keeps framed dropped returns =>
      exact .of_intact ((intact.keeps driven keeps).drops driven framed dropped returns)
    | leaves keeps framed dropped returns =>
      exact .of_torn id ((intact.keeps driven keeps).leaves driven framed dropped returns)
    | yields keeps permitted => exact .of_intact (intact.keeps driven keeps)
    | callsHost keeps => exact .of_intact (intact.keeps driven keeps)
    | resumes keeps => exact .of_intact (intact.keeps driven keeps)
  | falters driven effect allowed =>
    cases effect with
    | keeps keeps => exact .of_intact ((laid.whole trivial).keeps driven keeps)
    | loses keeps lost =>
      obtain ⟨frame, count, framed⟩ :=
        ((laid.whole trivial).keeps driven keeps).exists_framed driven
      exact absurd framed (lost.astray (keeps.room room) frame count)
  | works driven keeps unfinished reaches =>
    exact .of_intact ((laid.whole unfinished.whole).keeps driven keeps)
  | leaves unfinished => exact .of_intact (laid.whole unfinished.whole)
  | calls used unfinished admitted prepared =>
    have intact := laid.whole unfinished.whole
    rw [chunk] at prepared
    refine laid_call prepared small rfl rfl ?_ ?_
    · exact fun missing => by cases missing
    · dsimp only
      rw [← BoundedStack.length_toList, List.take_length]
      exact intact
  | @closesCall coroutine valueHeight _ mayYield =>
    obtain ⟨inner, outer, split, rfl, below⟩ := laid.below
    refine .of_intact ?_
    rw [← BoundedStack.toList_truncate, ← activeFrames_restore split valueHeight mayYield] at below
    exact below
  | waits driven unfinished running => exact .of_intact (laid.whole unfinished.whole)
  | wakes => exact .of_intact (laid.whole trivial)
  | guarded allowed operated => exact ⟨laid.whole, laid.below⟩

/-- The beginning of an entry is no yield. -/
theorem licensed_entered {coroutine : Coroutine} {marks : List Mark}
    (entered : Except ScriptError Nat) : Licensed ⟨coroutine, marks, .entered entered⟩ := by
  intro value resumeAt ending
  cases entered <;> cases ending

/-- Whoever is about to close a yield closes one that was permitted, as the permission is not
touched between the yield and its end. -/
theorem Inner.licensed {before after : Seen} (move : Inner rules before after)
    (licensed : Licensed before) : Licensed after := by
  cases move with
  | executes driven effect =>
    intro value resumeAt ending
    cases effect with
    | yields keeps permitted => exact keeps.mayYield.trans permitted
    | _ => cases ending
  | falters driven effect allowed => exact fun _ _ ending => by cases ending
  | works driven keeps unfinished reaches =>
    intro value resumeAt ending
    obtain unfinished | ⟨error, _, failed⟩ := reaches
    · dsimp only at ending
      rw [ending] at unfinished
      exact unfinished.elim
    · cases failed.symm.trans ending
  | leaves unfinished => exact fun _ _ ending => by cases ending
  | calls used unfinished admitted prepared => exact licensed_entered _
  | closesCall => exact fun _ _ ending => by cases ending
  | waits driven unfinished running => exact fun _ _ ending => by cases ending
  | wakes => exact fun _ _ ending => by cases ending
  | guarded allowed operated => exact licensed

/-- The same is true of the moves by which others enter a coroutine, which yield nothing. -/
theorem Move.licensed {before after : Seen} (move : Move rules id before after)
    (licensed : Licensed before) : Licensed after := by
  cases move with
  | inner move => exact move.licensed licensed
  | resumes unfinished resumable free admitted prepared => exact licensed_entered _
  | callsTop allowed isMain unfinished admitted prepared => exact licensed_entered _
  | holds before after => exact licensed
  | _ => exact fun _ _ ending => by cases ending

/-! ### Coroutines at rest -/

/-- The stacks of a coroutine, in use or at rest. One that has yielded keeps the segment that it
goes on with. -/
structure Stacked (rules : Rules) (id : CoroutineId) (seen : Seen) : Prop where
  laid : id = Store.main ∨ seen.marks ≠ [] → Laid rules.ground seen
  paused : id ≠ Store.main → seen.marks = [] → seen.coroutine.processor.savedPointer ≠ none →
    Segment rules.chunk False 0 seen.coroutine.processor.values.toList
      seen.coroutine.processor.activeFrames

/-- The script's own coroutine is never at rest in this sense. -/
theorem Stacked.ofMain {seen : Seen} (isMain : id = Store.main) (laid : Laid rules.ground seen) :
    Stacked rules id seen := ⟨fun _ => laid, fun other => absurd isMain other⟩

/-- A coroutine with marks is in use, so that nothing is asked of it as one at rest. -/
theorem Stacked.ofMarked {seen : Seen} (marked : seen.marks ≠ []) (laid : Laid rules.ground seen) :
    Stacked rules id seen := ⟨fun _ => laid, fun _ unmarked => absurd unmarked marked⟩

/-- The moves in use keep the stacks of a coroutine. One that is not in use makes none of them but
for its guard, which is on no stack. -/
theorem Inner.stacked {before after : Seen} (move : Inner rules before after)
    (handled : Handled id before)
    (room : before.coroutine.processor.values.height ≤ before.coroutine.processor.values.capacity)
    (small : after.coroutine.processor.values.height ≤ 2 ^ 53)
    (stacked : Stacked rules id before) : Stacked rules id after := by
  refine ⟨fun inUse => ?_, fun other unmarked => ?_⟩
  · rw [← move.marked_iff handled] at inUse
    exact move.laid rfl room small (stacked.laid inUse)
  · obtain ⟨idle, guard, same⟩ := move.rests handled unmarked
    rw [same]
    exact stacked.paused other idle

/-- A resume goes on with the segment that was left at a yield, or it begins one on nothing. One
that has nothing to go on with, or no room for its value, leaves what was there. -/
theorem Processor.ResumeEntry.laid {arguments : List Value} {before after : Processor}
    {entered : Except ScriptError Nat} {status found : CoroutineStatus} {access : Access}
    {parent : Option CoroutineId}
    (entry : ResumeEntry rules.chunk arguments before entered after)
    (empty : before.savedPointer = none →
      before.values.toList = [] ∧ before.activeFrames = [])
    (paused : before.savedPointer ≠ none →
      Segment rules.chunk False 0 before.values.toList before.activeFrames)
    (small : after.values.height ≤ 2 ^ 53) :
    Laid rules.ground ⟨⟨status, access, parent, after⟩, [.resume found], .entered entered⟩ := by
  cases entry with
  | continues saved grows values =>
    have segment := paused (by simp [saved])
    obtain ⟨frame, rest, _, _, active, _⟩ := segment.top
    rw [active] at segment
    have same : after.activeFrames = frame :: rest := (activeFrames_congr grows.frames).trans active
    refine .of_intact (show Segment _ _ _ _ _ from ?_)
    dsimp only
    rw [same]
    exact segment.congr (grows.take segment.base_between.2)
  | overflows saved grows own => exact .of_torn id trivial
  | @starts function _ _ fresh closure prepared =>
    obtain ⟨values, frames⟩ := empty fresh
    have exact : some (Value.closure function) = none → False := fun missing => by cases missing
    obtain ⟨_, ⟨pointer, frame, rfl, active, segment⟩ | ⟨error, rfl, _⟩⟩ :=
      entered_segment prepared small rfl exact
    · have alone : after.activeFrames = [frame] := active.trans (congrArg _ frames)
      have floor : before.values.height = 0 := by
        rw [← BoundedStack.length_toList, values]
        rfl
      refine .of_intact (show Segment _ _ _ _ _ from ?_)
      dsimp only
      rw [alone]
      simp only [floorOfCall, Option.isSome_some, if_true, floor] at segment
      exact segment
    · exact .of_torn id trivial
  | spent fresh closure => exact .of_torn id trivial

/-- Every move keeps the stacks as they should be, also those between use and rest. What a yield has
left is whole, and this is what a resume goes on with. -/
theorem Move.stacked {before after : Seen} (move : Move rules id before after)
    (handled : Handled id before) (tiered : Tiered id before)
    (room : before.coroutine.processor.values.height ≤ before.coroutine.processor.values.capacity)
    (small : after.coroutine.processor.values.height ≤ 2 ^ 53)
    (stacked : Stacked rules id before) : Stacked rules id after := by
  cases move with
  | inner move => exact move.stacked handled room small stacked
  | resumes unfinished resumable free admitted prepared =>
    obtain rfl := handled.unmarked_of_free free
    have other := handled.other_of_resumable resumable
    refine .ofMarked (by simp) ?_
    exact (resumeEntry_of_prepared prepared).laid (tiered.empty other rfl)
      (stacked.paused other rfl) small
  | @closesResume coroutine status marks outcome =>
    obtain ⟨other, resumable, rfl⟩ := handled.shaped
    refine ⟨fun inUse => absurd rfl (inUse.resolve_left other), fun _ _ => ?_⟩
    have laid := stacked.laid (.inr (by simp))
    match outcome with
    | .ok (.yielded value resumeAt) => exact fun _ => laid.whole trivial
    | .ok (.returned value) => exact fun saved => absurd rfl saved
    | .error error => exact fun saved => absurd rfl saved
  | borrows isMain unfinished free =>
    obtain rfl := handled.unmarked_of_free free
    exact .ofMain isMain (.of_intact ((stacked.laid (.inl isMain)).whole unfinished.whole))
  | pushes isMain grows =>
    obtain ⟨_, rfl⟩ := handled.shaped
    have frames : _ = [] := (stacked.laid (.inl isMain)).whole trivial
    exact .ofMain isMain (.of_intact ((activeFrames_congr grows.frames).trans frames))
  | releases => exact .ofMain handled.shaped.1 (.of_intact
      ((stacked.laid (.inl handled.shaped.1)).whole trivial))
  | callsTop allowed isMain unfinished admitted prepared =>
    obtain ⟨_, rfl⟩ := handled.shaped
    have frames := (stacked.laid (.inl isMain)).whole unfinished.whole
    exact .ofMain isMain (laid_call prepared small rfl rfl (fun _ => ⟨allowed, rfl⟩) frames)
  | holds before after =>
    refine ⟨fun inUse => ?_, stacked.paused⟩
    have laid := stacked.laid inUse
    exact ⟨laid.whole, laid.below⟩
  | born other newborn =>
    obtain ⟨parent, closure, rfl⟩ := newborn
    exact ⟨fun inUse => absurd rfl (inUse.resolve_left other), fun _ _ saved => absurd rfl saved⟩

end CoroutineVM
