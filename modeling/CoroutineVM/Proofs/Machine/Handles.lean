import CoroutineVM.Proofs.Machine.Moves

/-!
# Handles and marks agree

The status of a coroutine and the access to its processor lie on its handle, and they are changed in
other places than the list of those who wait. They agree all the same: a processor is executing
exactly while someone waits on it, a coroutine is normal exactly while it waits to be woken, and the
script's own coroutine keeps the status that only it has.
-/

namespace CoroutineVM

variable {rules : Rules} {id : CoroutineId}

/-- The marks of a coroutine follow each other as entries do. A resume or a loan is the outermost
mark of its coroutine, and nobody is entered before being woken. -/
def Shaped (id : CoroutineId) : List Mark → Prop
  | [] => True
  | .call _ _ _ :: rest => Usable rest ∧ Shaped id rest
  | .resume before :: rest => id ≠ Store.main ∧ before.isResumable = true ∧ rest = []
  | .wake :: rest => id ≠ Store.main ∧ Driven rest ∧ Shaped id rest
  | .borrow :: rest => id = Store.main ∧ rest = []

/-- The status of a coroutine other than the script's own one, told from its marks. -/
def Agrees (status : CoroutineStatus) : List Mark → Prop
  | [] => status.isResumable = true ∨ status = .dead
  | .wake :: _ => status = .normal
  | .call _ _ _ :: _ | .resume _ :: _ | .borrow :: _ => status = .running

/-- What the handle of a coroutine has to do with those who wait on it. -/
structure Handled (id : CoroutineId) (seen : Seen) : Prop where
  access : seen.coroutine.access = .executing ↔ seen.marks ≠ []
  shaped : Shaped id seen.marks
  driven : seen.standing = .apart ∨ Driven seen.marks
  main : id = Store.main → seen.coroutine.status = .main
  status : id ≠ Store.main → Agrees seen.coroutine.status seen.marks

/-- The coroutine that can be used is the running one. -/
theorem Agrees.running {status : CoroutineStatus} {marks : List Mark}
    (agrees : Agrees status marks) (usable : Usable marks) : status = .running := by
  cases marks with
  | nil => exact usable.elim
  | cons mark rest =>
    cases mark with
    | wake => exact usable.elim
    | call valueHeight frameHeight mayYield => exact agrees
    | resume before => exact agrees
    | borrow => exact agrees

/-- A coroutine that has just become running agrees with the mark that has made it so. -/
theorem agrees_of_usable {marks : List Mark} (usable : Usable marks) : Agrees .running marks := by
  cases marks with
  | nil => exact usable.elim
  | cons mark rest =>
    cases mark with
    | wake => exact usable.elim
    | call valueHeight frameHeight mayYield => rfl
    | resume before => rfl
    | borrow => rfl

/-- A coroutine on which nobody waits is neither running nor normal. -/
theorem Agrees.resting {status : CoroutineStatus} (agrees : Agrees status []) :
    status = .notStarted ∨ status = .suspended ∨ status = .dead := by
  obtain resumable | dead := agrees
  · cases status with
    | notStarted => exact .inl rfl
    | suspended => exact .inr (.inl rfl)
    | _ => cases resumable
  · exact .inr (.inr dead)

/-- A coroutine on which someone waits is one or the other. -/
theorem Agrees.active {status : CoroutineStatus} {marks : List Mark} (agrees : Agrees status marks)
    (marked : marks ≠ []) : status = .running ∨ status = .normal := by
  cases marks with
  | nil => exact absurd rfl marked
  | cons mark rest =>
    cases mark with
    | wake => exact .inr agrees
    | call valueHeight frameHeight mayYield => exact .inl agrees
    | resume before => exact .inl agrees
    | borrow => exact .inl agrees

/-- A coroutine in use has been resumed: its outermost mark is that of a resume, since calls,
wakings and loans are shaped to stand inside of one or on the script's own coroutine. -/
theorem Shaped.resumed {marks : List Mark} (shaped : Shaped id marks) (other : id ≠ Store.main)
    (marked : marks ≠ []) : ∃ before, .resume before ∈ marks := by
  induction marks with
  | nil => exact absurd rfl marked
  | cons mark rest inductionHypothesis =>
    cases mark with
    | call valueHeight frameHeight mayYield =>
      obtain ⟨before, member⟩ := inductionHypothesis shaped.2 shaped.1.ne_nil
      exact ⟨before, List.mem_cons_of_mem _ member⟩
    | resume before => exact ⟨before, List.mem_cons_self⟩
    | wake =>
      obtain ⟨before, member⟩ := inductionHypothesis shaped.2.2 shaped.2.1.ne_nil
      exact ⟨before, List.mem_cons_of_mem _ member⟩
    | borrow => exact absurd shaped.1 other

/-- A resume that waits to be closed is counted. -/
theorem depth_pos {marks : List Mark} {before : CoroutineStatus} (member : .resume before ∈ marks) :
    1 ≤ depth marks := by
  induction marks with
  | nil => cases member
  | cons mark rest inductionHypothesis =>
    cases mark with
    | call valueHeight frameHeight mayYield => exact Nat.le_add_left _ _
    | resume other => exact Nat.le_add_left _ _
    | wake => exact inductionHypothesis (by simpa using member)
    | borrow => exact inductionHypothesis (by simpa using member)

/-- A processor that is free or held has nobody who waits on it. -/
theorem Handled.unmarked {coroutine : Coroutine} {marks : List Mark} {standing : Standing}
    (handled : Handled id ⟨coroutine, marks, standing⟩) (idle : coroutine.access ≠ .executing) :
    marks = [] :=
  Classical.byContradiction fun marked => idle (handled.access.mpr marked)

/-- Before a resume or a loan the processor is free, so that the new mark is the only one. -/
theorem Handled.unmarked_of_free {coroutine : Coroutine} {marks : List Mark} {standing : Standing}
    (handled : Handled id ⟨coroutine, marks, standing⟩) (free : coroutine.access = .free) :
    marks = [] :=
  handled.unmarked (by simp [free])

/-- The script's own coroutine cannot be resumed, because its status never changes. -/
theorem Handled.other_of_resumable {seen : Seen} (handled : Handled id seen)
    (resumable : seen.coroutine.status.isResumable = true) : id ≠ Store.main := by
  intro isMain
  rw [handled.main isMain] at resumable
  cases resumable

/-- The statuses that a resume can leave are those of a coroutine that is not in use. An error of
the guard puts the earlier status back, which was resumable. -/
theorem statusAfter_rests {before : CoroutineStatus} (resumable : before.isResumable = true)
    (outcome : Outcome) :
    (Machine.statusAfter before outcome).isResumable = true ∨
      Machine.statusAfter before outcome = .dead := by
  unfold Machine.statusAfter
  split
  next exit =>
    cases exit with
    | returned value => exact .inr rfl
    | yielded value resumeAt => exact .inl rfl
  next => exact .inl resumable
  next => exact .inr rfl

/-- The moves of a coroutine in use keep its handle in agreement: those that change the status push
or drop the mark that goes with it. -/
theorem Inner.handled {before after : Seen} (move : Inner rules before after)
    (handled : Handled id before) : Handled id after := by
  obtain ⟨access, shaped, driven, main, status⟩ := handled
  cases move with
  | executes isDriven effect => exact ⟨access, shaped, .inr isDriven, main, status⟩
  | falters isDriven effect allowed => exact ⟨access, shaped, .inr isDriven, main, status⟩
  | works isDriven keeps unfinished reaches => exact ⟨access, shaped, .inr isDriven, main, status⟩
  | leaves unfinished => exact ⟨access, shaped, .inl rfl, main, status⟩
  | calls used unfinished admitted prepared =>
    refine ⟨?_, ⟨used, shaped⟩, .inr trivial, main, fun other => (status other).running used⟩
    exact ⟨fun _ => by simp, fun _ => access.mpr used.ne_nil⟩
  | closesCall =>
    obtain ⟨usable, rest⟩ := shaped
    refine ⟨?_, rest, .inl rfl, main, ?_⟩
    · exact ⟨fun _ => usable.ne_nil, fun _ => access.mpr (by simp)⟩
    · intro other
      rw [status other]
      exact agrees_of_usable usable
  | waits isDriven unfinished running =>
    have other : id ≠ Store.main := by
      intro isMain
      rw [main isMain] at running
      cases running
    refine ⟨?_, ⟨other, isDriven, shaped⟩, .inl rfl, fun isMain => absurd isMain other,
      fun _ => rfl⟩
    exact ⟨fun _ => by simp, fun _ => access.mpr isDriven.ne_nil⟩
  | wakes =>
    obtain ⟨other, isDriven, rest⟩ := shaped
    refine ⟨?_, rest, .inl rfl, fun isMain => absurd isMain other, ?_⟩
    · exact ⟨fun _ => isDriven.ne_nil, fun _ => access.mpr (by simp)⟩
    · exact fun _ => agrees_of_usable isDriven.usable
  | guarded allowed operated => exact ⟨access, shaped, driven, main, status⟩

/-- A coroutine is entered and left by other moves. -/
theorem Inner.access {before after : Seen} (move : Inner rules before after) :
    after.coroutine.access = before.coroutine.access := by
  cases move <;> rfl

/-- So inner moves neither make a coroutine unused nor take it into use. -/
theorem Inner.marked_iff {before after : Seen} (move : Inner rules before after)
    (handled : Handled id before) : before.marks ≠ [] ↔ after.marks ≠ [] := by
  rw [← handled.access, ← (move.handled handled).access, move.access]

/-- A coroutine on which nobody waits is left alone, but for its guard, which may be operated by
hand. All other inner moves are of a coroutine in use. -/
theorem Inner.rests {before after : Seen} (move : Inner rules before after)
    (handled : Handled id before) (unmarked : after.marks = []) :
    before.marks = [] ∧ ∃ guard, after.coroutine =
      { before.coroutine with
        processor := { before.coroutine.processor with guard := guard } } := by
  have idle : before.marks = [] :=
    Classical.byContradiction fun busy => (move.marked_iff handled).mp busy unmarked
  refine ⟨idle, ?_⟩
  cases move with
  | leaves unfinished => exact ⟨_, rfl⟩
  | guarded allowed operated => exact ⟨_, rfl⟩
  | executes driven effect => exact absurd idle driven.ne_nil
  | falters driven effect allowed => exact absurd idle driven.ne_nil
  | works driven keeps unfinished reaches => exact absurd idle driven.ne_nil
  | calls used unfinished admitted prepared => exact absurd idle used.ne_nil
  | waits driven unfinished running => exact absurd idle driven.ne_nil
  | closesCall => cases idle
  | wakes => cases idle

/-- Every move keeps the handle in agreement. A resume and a loan start from a coroutine without
marks and leave one mark, and their ends take it away again. -/
theorem Move.handled {before after : Seen} (move : Move rules id before after)
    (handled : Handled id before) : Handled id after := by
  cases move with
  | inner move => exact move.handled handled
  | resumes unfinished resumable free admitted prepared =>
    obtain rfl := handled.unmarked_of_free free
    have other := handled.other_of_resumable resumable
    exact ⟨by simp, ⟨other, resumable, rfl⟩, .inr trivial, fun isMain => absurd isMain other,
      fun _ => rfl⟩
  | closesResume =>
    obtain ⟨other, resumable, rfl⟩ := handled.shaped
    exact ⟨by simp, trivial, .inl rfl, fun isMain => absurd isMain other,
      fun _ => statusAfter_rests resumable _⟩
  | borrows isMain unfinished free =>
    obtain rfl := handled.unmarked_of_free free
    exact ⟨by simp, ⟨isMain, rfl⟩, .inl rfl, handled.main, fun other => absurd isMain other⟩
  | pushes isMain grows =>
    exact ⟨handled.access, handled.shaped, .inl rfl, handled.main, handled.status⟩
  | releases =>
    obtain ⟨isMain, rfl⟩ := handled.shaped
    exact ⟨by simp, trivial, .inl rfl, handled.main, fun other => absurd isMain other⟩
  | callsTop allowed isMain unfinished admitted prepared =>
    refine ⟨?_, ⟨trivial, handled.shaped⟩, .inr trivial, handled.main,
      fun other => absurd isMain other⟩
    exact ⟨fun _ => by simp, fun _ => handled.access.mpr (by simp)⟩
  | holds before after =>
    obtain rfl := handled.unmarked before
    exact ⟨by simp [after], handled.shaped, handled.driven, handled.main, handled.status⟩
  | born other newborn =>
    obtain ⟨parent, closure, rfl⟩ := newborn
    exact ⟨by simp, trivial, .inl rfl, fun isMain => absurd isMain other, fun _ => .inl rfl⟩

end CoroutineVM
