import CoroutineVM.Guard

/-!
# One thread at a time

A guard is entered and left by any number of threads, one use after the other. A use may be refused,
and then nothing has happened. `ThreadGuard.after` is the guard that a history of uses leaves,
`entries` and `leaves` count what each thread has done in it, and a history is `Paired` when nobody
leaves more often than they have entered. That is all that is asked of the threads.

Two things are kept by every use of a paired history: a guard has an owner exactly if it is nested,
and the entries that are not left again are its owner's, as many as it is deep. What the next use
comes to can be read off these.
-/

namespace CoroutineVM

/-- What a thread does to a guard. -/
inductive GuardUse where
  | enter (thread : ThreadId)
  | leave (thread : ThreadId)
  deriving DecidableEq, Repr

namespace ThreadGuard

/-- Whether a thread is let in. -/
def Admits (guard : ThreadGuard) (thread : ThreadId) : Prop :=
  guard.owner = none ∨ guard.owner = some thread

instance (guard : ThreadGuard) (thread : ThreadId) : Decidable (guard.Admits thread) :=
  inferInstanceAs (Decidable (_ ∨ _))

/-- The guard after a use; a refused one leaves it as it is. -/
def use (guard : ThreadGuard) : GuardUse → ThreadGuard
  | .enter thread =>
    match guard.enter thread with
    | .ok deeper => deeper
    | .error _ => guard
  | .leave _ => guard.leave.2

/-- The guard after a history of uses, the newest one first. It begins free. -/
def after : List GuardUse → ThreadGuard
  | [] => free
  | use :: earlier => (after earlier).use use

/-- How often a thread has been let in. -/
def entries (thread : ThreadId) : List GuardUse → Nat
  | [] => 0
  | .enter caller :: earlier =>
    entries thread earlier + if caller = thread ∧ (after earlier).Admits thread then 1 else 0
  | .leave _ :: earlier => entries thread earlier

/-- How often a thread has left. -/
def leaves (thread : ThreadId) (uses : List GuardUse) : Nat := uses.count (.leave thread)

/-- Whoever leaves has been let in more often than they have left. -/
def Paired : List GuardUse → Prop
  | [] => True
  | .enter _ :: earlier => Paired earlier
  | .leave thread :: earlier => leaves thread earlier < entries thread earlier ∧ Paired earlier

instance decidablePaired : DecidablePred Paired
  | [] => .isTrue trivial
  | .enter _ :: earlier => decidablePaired earlier
  | .leave _ :: earlier => @instDecidableAnd _ _ _ (decidablePaired earlier)

/-- Every earlier part of a paired history is paired. Histories are listed newest first, so an
earlier part is a suffix. -/
theorem Paired.earlier {uses earlier : List GuardUse} (paired : Paired uses)
    (isSuffix : earlier <:+ uses) : Paired earlier := by
  induction uses with
  | nil => exact List.suffix_nil.mp isSuffix ▸ trivial
  | cons use rest inductionHypothesis =>
    obtain rfl | shorter := List.suffix_cons_iff.mp isSuffix
    · exact paired
    · cases use with
      | enter thread => exact inductionHypothesis paired shorter
      | leave thread => exact inductionHypothesis paired.2 shorter

/-! ### Single uses -/

variable {guard : ThreadGuard} {thread : ThreadId}

/-- Whoever is admitted owns the guard from then on, one level deeper; who has owned it before makes
no difference. -/
theorem enter_of_admits (admits : guard.Admits thread) :
    guard.enter thread = .ok ⟨some thread, guard.nesting + 1⟩ := by
  obtain unowned | owned := admits
  · simp only [enter, unowned]
  · simp only [enter, owned, if_true]

/-- Whoever is not admitted is told both threads, the owner first. -/
theorem enter_of_owner {owner : ThreadId} (owned : guard.owner = some owner)
    (other : owner ≠ thread) :
    guard.enter thread = .error (.crossThreadAccess owner thread) := by
  simp only [enter, owned, other, if_false]

/-- A thread that is not let in meets an owner other than itself. A guard that nobody owns lets
everyone in. -/
theorem exists_owner (refused : ¬ guard.Admits thread) :
    ∃ owner, guard.owner = some owner ∧ owner ≠ thread := by
  cases owned : guard.owner with
  | none => exact absurd (.inl owned) refused
  | some owner =>
    refine ⟨owner, rfl, ?_⟩
    rintro rfl
    exact refused (.inr owned)

/-- As a use of the guard, an entry that is admitted comes to the deeper guard. -/
theorem use_enter_of_admits (admits : guard.Admits thread) :
    guard.use (.enter thread) = ⟨some thread, guard.nesting + 1⟩ := by
  simp only [use, enter_of_admits admits]

/-- As a use of the guard, an entry that is refused comes to nothing at all. -/
theorem use_enter_of_refused (refused : ¬ guard.Admits thread) :
    guard.use (.enter thread) = guard := by
  obtain ⟨owner, owned, other⟩ := exists_owner refused
  simp only [use, enter_of_owner owned other]

/-- The outermost level is the last one to be left. It frees the guard, so that it has no owner as
long as it is not nested. -/
theorem leave_outermost (single : guard.nesting = 1) : guard.leave = (true, free) := by
  simp only [leave, single]

/-- Any other level is left without a change of the owner. -/
theorem leave_deeper {depth : Nat} (deep : guard.nesting = depth + 2) :
    guard.leave = (false, { guard with nesting := depth + 1 }) := by
  simp only [leave, deep]

/-! ### Histories -/

/-- The owner's entries that have not been left again. -/
def share (guard : ThreadGuard) (thread : ThreadId) : Nat :=
  if guard.owner = some thread then guard.nesting else 0

/-- What a guard says is what the threads have done. -/
structure Accounts (uses : List GuardUse) : Prop where
  owned : (after uses).owner = none ↔ (after uses).nesting = 0
  balanced : ∀ thread, entries thread uses = leaves thread uses + (after uses).share thread

/-- An entry keeps the accounts, admitted or not. An admitted one adds one entry and one level; the
thread that makes it owns the guard afterwards, and nobody else has an open entry, because nobody
else has owned the guard before. -/
theorem accounts_enter {earlier : List GuardUse} (accounts : Accounts earlier) (caller : ThreadId) :
    Accounts (.enter caller :: earlier) := by
  have left : ∀ thread, leaves thread (.enter caller :: earlier) = leaves thread earlier :=
    fun thread => List.count_cons_of_ne (by simp)
  by_cases admits : (after earlier).Admits caller
  · have entered : after (.enter caller :: earlier) = ⟨some caller, (after earlier).nesting + 1⟩ :=
      use_enter_of_admits admits
    refine ⟨by simp [entered], fun thread => ?_⟩
    have before := accounts.balanced thread
    rw [left, entered, entries, before]
    by_cases own : caller = thread
    · subst own
      -- A guard without an owner is not nested, so that its nesting is this thread's in both cases.
      have shared : (after earlier).share caller = (after earlier).nesting := by
        obtain unowned | owned := admits
        · simp [share, unowned, accounts.owned.mp unowned]
        · simp [share, owned]
      rw [shared, if_pos ⟨rfl, admits⟩, share, if_pos rfl, Nat.add_assoc]
    · have elsewhere : (after earlier).share thread = 0 := by
        obtain unowned | owned := admits
        · simp [share, unowned]
        · simp [share, owned, own]
      rw [elsewhere, if_neg (fun both => own both.1), share, if_neg (by simpa using own)]
  · have refused : after (.enter caller :: earlier) = after earlier := use_enter_of_refused admits
    refine ⟨by rw [refused]; exact accounts.owned, fun thread => ?_⟩
    have missing : ¬ (caller = thread ∧ (after earlier).Admits thread) := by
      rintro ⟨rfl, admitted⟩
      exact admits admitted
    rw [left, refused, entries, if_neg missing, Nat.add_zero]
    exact accounts.balanced thread

/-- Someone whose entries are not all left again owns the guard: the entries of all others are
balanced. -/
theorem Accounts.owner {uses : List GuardUse} (accounts : Accounts uses)
    (inside : leaves thread uses < entries thread uses) :
    (after uses).owner = some thread ∧ 0 < (after uses).nesting := by
  have balanced := accounts.balanced thread
  rw [share] at balanced
  split at balanced
  next owned => exact ⟨owned, by omega⟩
  next => omega

/-- A thread that leaves has an open entry, so it is the owner and the guard is nested. One entry is
closed and one level goes, and with the last level the owner. -/
theorem accounts_leave {earlier : List GuardUse} (accounts : Accounts earlier) {caller : ThreadId}
    (inside : leaves caller earlier < entries caller earlier) :
    Accounts (.leave caller :: earlier) := by
  obtain ⟨owned, nested⟩ := accounts.owner inside
  have own : leaves caller (.leave caller :: earlier) = leaves caller earlier + 1 :=
    List.count_cons_self
  have left : ∀ thread, thread ≠ caller →
      leaves thread (.leave caller :: earlier) = leaves thread earlier := fun thread other =>
    List.count_cons_of_ne (by simpa using other.symm)
  -- Whoever does not own the guard has no share in it, before and after.
  have balanced : ∀ {guard : ThreadGuard}, after (.leave caller :: earlier) = guard →
      guard.nesting + 1 = (after earlier).nesting →
      (∀ thread, thread ≠ caller → guard.share thread = 0) →
      guard.share caller = guard.nesting → ∀ thread,
      entries thread (.leave caller :: earlier) =
        leaves thread (.leave caller :: earlier) + guard.share thread := by
    intro guard reached lower elsewhere here thread
    have before := accounts.balanced thread
    by_cases isCaller : thread = caller
    · subst isCaller
      rw [share, if_pos owned] at before
      rw [entries, own, here]
      omega
    · have absent : (after earlier).share thread = 0 := by
        rw [share, owned, if_neg (by simpa using Ne.symm isCaller)]
      rw [entries, left thread isCaller, elsewhere thread isCaller, before, absent]
  by_cases single : (after earlier).nesting = 1
  · have freed : after (.leave caller :: earlier) = free := by
      rw [after, use, leave_outermost single]
    exact ⟨by simp [freed, free], freed ▸ balanced freed (by simp [single, free])
      (fun _ _ => by simp [share, free]) (by simp [share, free])⟩
  · obtain ⟨depth, deep⟩ : ∃ depth, (after earlier).nesting = depth + 2 :=
      ⟨(after earlier).nesting - 2, by omega⟩
    have lowered : after (.leave caller :: earlier) =
        { after earlier with nesting := depth + 1 } := by
      rw [after, use, leave_deeper deep]
    refine ⟨by simp [lowered, owned], lowered ▸ balanced lowered (by simp [deep]) ?_ ?_⟩
    · intro thread other
      simp [share, owned, Ne.symm other]
    · simp [share, owned]

/-- The accounts hold after every paired history, by induction on the uses. -/
theorem Paired.accounts {uses : List GuardUse} (paired : Paired uses) : Accounts uses := by
  induction uses with
  | nil => exact ⟨by simp [after, free], by simp [entries, leaves, after, share, free]⟩
  | cons use earlier inductionHypothesis =>
    cases use with
    | enter thread => exact accounts_enter (inductionHypothesis paired) thread
    | leave thread => exact accounts_leave (inductionHypothesis paired.2) paired.1

/-! ### What a paired history can rely on -/

/-- After these uses the guard belongs to one thread at most, and the next use comes to what that
says. -/
structure Exclusive (uses : List GuardUse) : Prop where
  /-- The guard is owned exactly while it is nested. -/
  owned : (after uses).owner = none ↔ (after uses).nesting = 0
  /-- While the guard is nested, the entries that nobody has left again were all made by one thread,
  its owner, and there are as many as it is deep. -/
  nested : 0 < (after uses).nesting → ∃ owner, (after uses).owner = some owner ∧
    entries owner uses = leaves owner uses + (after uses).nesting ∧
    ∀ thread, thread ≠ owner → entries thread uses = leaves thread uses
  /-- A thread gets in exactly if nobody else owns the guard. -/
  enters : ∀ thread, (∃ deeper, (after uses).enter thread = .ok deeper) ↔ (after uses).Admits thread
  /-- Whoever gets in owns the guard and is told its new depth. -/
  deepens : ∀ thread deeper, (after uses).enter thread = .ok deeper →
    deeper = ⟨some thread, (after uses).nesting + 1⟩ ∧ after (.enter thread :: uses) = deeper
  /-- Whoever does not is told who owns the guard, and changes nothing. -/
  refuses : ∀ thread error, (after uses).enter thread = .error error →
    (∃ owner, (after uses).owner = some owner ∧ error = .crossThreadAccess owner thread) ∧
      after (.enter thread :: uses) = after uses
  /-- Leaving takes one level off. It says that the outermost level has been left exactly if that
  was the only one, and then any thread may be next. -/
  lowers : ∀ thread, leaves thread uses < entries thread uses →
    (after (.leave thread :: uses)).nesting + 1 = (after uses).nesting ∧
    ((after uses).leave.1 = true ↔ (after uses).nesting = 1) ∧
    ((after uses).leave.1 = true → ∀ next,
      (after (.leave thread :: uses)).enter next = .ok ⟨some next, 1⟩)

/-- All that can be relied on follows from the accounts and the equations for a single use; the
history is not looked at again. -/
theorem Accounts.exclusive {uses : List GuardUse} (accounts : Accounts uses) : Exclusive uses where
  owned := accounts.owned
  nested := by
    intro nested
    cases owned : (after uses).owner with
    | none => exact absurd (accounts.owned.mp owned) (Nat.ne_of_gt nested)
    | some owner =>
      refine ⟨owner, rfl, ?_, fun thread other => ?_⟩
      · rw [accounts.balanced owner, share, if_pos owned]
      · rw [accounts.balanced thread, share, owned, if_neg (by simpa using Ne.symm other),
          Nat.add_zero]
  enters := by
    refine fun thread => ⟨?_, fun admits => ⟨_, enter_of_admits admits⟩⟩
    rintro ⟨deeper, entered⟩
    refine Decidable.byContradiction fun refused => ?_
    obtain ⟨owner, owned, other⟩ := exists_owner refused
    cases (enter_of_owner owned other).symm.trans entered
  deepens := by
    intro thread deeper entered
    have same : after (.enter thread :: uses) = deeper := by rw [after, use, entered]
    by_cases admits : (after uses).Admits thread
    · cases (enter_of_admits admits).symm.trans entered
      exact ⟨rfl, same⟩
    · obtain ⟨owner, owned, other⟩ := exists_owner admits
      cases (enter_of_owner owned other).symm.trans entered
  refuses := by
    intro thread error refused
    by_cases admits : (after uses).Admits thread
    · cases (enter_of_admits admits).symm.trans refused
    · obtain ⟨owner, owned, other⟩ := exists_owner admits
      cases (enter_of_owner owned other).symm.trans refused
      exact ⟨⟨owner, owned, rfl⟩, use_enter_of_refused admits⟩
  lowers := by
    intro thread inside
    obtain ⟨_, nested⟩ := accounts.owner inside
    by_cases single : (after uses).nesting = 1
    · simp [after, use, leave_outermost single, single, free, enter]
    · obtain ⟨depth, deep⟩ : ∃ depth, (after uses).nesting = depth + 2 :=
        ⟨(after uses).nesting - 2, by omega⟩
      simp [after, use, leave_deeper deep, deep]

/-- However many threads use a guard, one at a time or in turns, none of them leaving more often
than it has entered: after every part of the history the guard belongs to one thread at most, whose
open entries are its nesting, and it lets in this thread, or any if there is none. -/
theorem guard_admits_one_thread {uses earlier : List GuardUse} (paired : Paired uses)
    (isSuffix : earlier <:+ uses) : Exclusive earlier :=
  (paired.earlier isSuffix).accounts.exclusive

/-- A thread enters twice, another one is refused, the first one leaves, and after it has left for
the second time the other one gets in. -/
theorem guard_changes_hands :
    let uses : List GuardUse := [.enter 2, .leave 1, .leave 1, .enter 2, .enter 1, .enter 1]
    Paired uses ∧ uses.tail <:+ uses ∧ Exclusive uses.tail ∧ after uses = ⟨some 2, 1⟩ :=
  ⟨by decide, by decide, guard_admits_one_thread (by decide) (List.tail_suffix _), by decide⟩

end ThreadGuard

end CoroutineVM
