import CoroutineVM.Proofs.Termination.Loops

/-!
# Code without backward jumps

Since no processor has ever more frames than the settings leave room for, what is left when a loop
begins is bounded by a number that is known before anything runs. Every call and every resume of a
script whose code does not jump back, and which resumes nothing itself, comes back after so many
iterations at most, whatever has happened before.
-/

namespace CoroutineVM

open Processor

variable {W : Type} {host : Host W} {id : CoroutineId} {chunk : Chunk} {limit : Nat}

/-! ### Frames fit in every run -/

/-- The moves of a coroutine in use keep its frames within the limit. Their number is looked at
before each frame that is put on, and nothing changes the capacity. -/
theorem Inner.fits {rules : Rules} {before after : Seen} (move : Inner rules before after)
    (fits : before.coroutine.processor.Fits limit) : after.coroutine.processor.Fits limit := by
  cases move with
  | executes driven effect => exact (aligned_effect effect).fits fits
  | falters driven effect allowed => exact (aligned_falters effect).fits fits
  | works driven keeps unfinished reaches => exact keeps.toAligned.fits fits
  | leaves unfinished => exact fits
  | calls used unfinished admitted prepared =>
    exact (aligned_enterFromHost prepared).fits (fits.congr rfl)
  | closesCall =>
    refine ⟨?_, fits.limited⟩
    have room := fits.room
    simp only [restore, BoundedStack.height_truncate, BoundedStack.capacity_truncate] at room ⊢
    omega
  | waits driven unfinished running => exact fits
  | wakes => exact fits
  | guarded allowed operated => exact fits.congr rfl

/-- A resume pushes a value or enters a function; the latter puts on one frame if there is room for
it. -/
theorem Processor.ResumeEntry.fits {arguments : List Value} {before after : Processor}
    {entered : Except ScriptError Nat} (entry : ResumeEntry chunk arguments before entered after)
    (fits : before.Fits limit) : after.Fits limit := by
  cases entry with
  | continues saved grows values => exact grows.toAligned.fits (fits.congr rfl)
  | overflows saved grows own => exact grows.toAligned.fits (fits.congr rfl)
  | starts fresh entry prepared =>
    exact (aligned_enterFromHost prepared).fits (fits.congr rfl)
  | spent fresh entry => exact fits

/-- Every move keeps frames within the limit, also that by which a coroutine comes into being, as
its capacity is the one of the settings. -/
theorem Move.fits {rules : Rules} {before after : Seen} (move : Move rules id before after)
    (settings : rules.settings.frameCapacity ≤ limit)
    (fits : before.coroutine.processor.Fits limit) :
    after.coroutine.processor.Fits limit := by
  cases move with
  | inner move => exact move.fits fits
  | resumes unfinished resumable access admitted prepared =>
    exact (resumeEntry_of_prepared prepared).fits (fits.congr rfl)
  | @closesResume coroutine before marks outcome =>
    have limited : (Machine.processorAfter outcome coroutine.processor).Fits limit := by
      unfold Machine.processorAfter
      split
      · exact fits.congr rfl
      · exact ⟨Nat.zero_le _, fits.limited⟩
    exact limited.congr rfl
  | borrows isMain unfinished access => exact fits
  | pushes isMain grows => exact grows.toAligned.fits fits
  | releases => exact fits
  | callsTop allowed isMain unfinished admitted prepared =>
    exact (aligned_enterFromHost prepared).fits (fits.congr rfl)
  | holds before after => exact fits
  | born other newborn =>
    obtain ⟨parent, closure, rfl⟩ := newborn
    exact ⟨Nat.zero_le _, settings⟩

/-- So does a step of a machine, for every coroutine at once, the new one included. -/
theorem Advances.fits {allowances : Allowances} {before after : Machine W}
    (advances : Advances (before.store.rules allowances) before after)
    (settings : before.store.settings.frameCapacity ≤ limit)
    (fits : ∀ id, (before.store.processor id).Fits limit) (id : CoroutineId) :
    (after.store.processor id).Fits limit := by
  have moves := advances.moves id
  have carried : ∀ {first last : Seen}, Moves (before.store.rules allowances) id first last →
      first.coroutine.processor.Fits limit → last.coroutine.processor.Fits limit := by
    intro first last moves fits
    induction moves with
    | refl => exact fits
    | tail _ move inductionHypothesis => exact move.fits settings inductionHypothesis
  exact carried (advances.moves id) (fits id)

/-- No processor has ever more frames than the settings leave room for. This holds at the start,
where there is one processor without frames, and every step and every operation keeps it. -/
theorem reachable_fits {settings : Settings} {thread : ThreadId} {operations : List Operation}
    {machine : Machine W}
    (reached : Machine.Reachable host (.initial chunk settings thread) operations machine)
    (id : CoroutineId) : (machine.store.processor id).Fits settings.frameCapacity := by
  have new :
      ∀ id, ((Store.initial chunk settings thread).processor id).Fits settings.frameCapacity := by
    intro id
    by_cases isMain : id = Store.main
    · subst isMain
      exact ⟨Nat.zero_le _, Nat.le_refl _⟩
    · have unknown : ¬ (Store.initial chunk settings thread).Has id := by
        rw [Store.Has]
        simpa [Store.initial, Store.main] using isMain
      rw [Store.processor, Store.coroutine_gone unknown]
      exact ⟨Nat.zero_le _, Nat.zero_le _⟩
  refine reached.induction
    (fun machine => ∀ id, (machine.store.processor id).Fits settings.frameCapacity)
    (fun _ => new) ?_ ?_ id
  · intro operations machine reached rests fits operation world
    obtain ⟨sound, lasts⟩ := reachable_sound (guardsAllowed host operations) reached
    have advances :=
      (sound.resting True rests).begin rests operation (fun _ => trivial) (fun _ => trivial) world
    exact advances.fits (lasts.settings ▸ Nat.le_refl _) fits
  · intro operations machine reached fits
    obtain ⟨sound, lasts⟩ := reachable_sound (guardsAllowed host operations) reached
    have advances := sound.step host (fun _ _ => trivial) (fun _ _ => trivial) fun _ _ _ => trivial
    exact advances.fits (lasts.settings ▸ Nat.le_refl _) fits

/-! ### Entries come back -/

section

variable {store : Store} {outer : List Pending}

/-- What has been entered comes back: at once with an error, or by the loop that goes on at the
place that has been found. -/
theorem focusAt_comesBack (forward : chunk.Forward) (loops : store.Loops chunk limit id)
    (entered : Except ScriptError Nat) (world : W)
    (attends : Machine.Attends host ⟨store, world, Turn.focusAt id entered, outer⟩) :
    Machine.ComesBack host outer (chunk.weight (limit + 1))
      ⟨store, world, Turn.focusAt id entered, outer⟩ := by
  cases entered with
  | error error => exact comesBack_settled _ _ _ _ _
  | ok pointer =>
    have left := loops.fits.remaining_lt chunk pointer
    exact (loop_comesBack forward loops pointer world attends).mono left

/-- A call comes back, whether the guard refuses it, or it cannot be entered, or its code runs. In
the last case there is a loop whose bound holds from any place. -/
theorem call_comesBack (forward : chunk.Forward) (loops : store.Loops chunk limit id)
    (callee : Option Value) (arguments : List Value) (world : W)
    (attends :
      Machine.Attends host (Machine.enter (store.beginCall id callee arguments) world outer)) :
    Machine.ComesBack host outer (chunk.weight (limit + 1))
      (Machine.enter (store.beginCall id callee arguments) world outer) := by
  cases admitted : store.passGuard id with
  | error error =>
    rw [enter_beginCall_refused admitted]
    exact comesBack_settled _ _ _ _ _
  | ok guard =>
    cases prepared : enterFromHost store.chunk callee arguments
      { store.processor id with guard := guard, mayYield := false } with
    | mk entered processor =>
      have enters := enter_beginCall loops.known admitted prepared world outer
      rw [enters] at attends ⊢
      have within :
          (store.modifyCoroutine id ({ · with processor := processor })).Loops chunk limit id := by
        refine ⟨loops.script, (Store.lasts_modifyCoroutine _ _ _).has loops.known, ?_⟩
        rw [Store.processor, Store.coroutine_modifyCoroutine loops.known]
        exact (aligned_enterFromHost prepared).fits (loops.fits.congr rfl)
      exact (focusAt_comesBack forward within entered world attends).hand
        fun _ _ _ => ⟨_, _, _, rfl⟩

/-- So does a resume, which may go on in the middle of a function. What is left from there is not
more than what was left from its beginning. -/
theorem resume_comesBack (forward : chunk.Forward) (script : store.chunk = chunk)
    (fits : ∀ id, (store.processor id).Fits limit) (target : CoroutineId) (arguments : List Value)
    (world : W)
    (attends :
      Machine.Attends host (Machine.enter (store.beginResume target arguments) world outer)) :
    Machine.ComesBack host outer (chunk.weight (limit + 1))
      (Machine.enter (store.beginResume target arguments) world outer) := by
  obtain ⟨error, refuses⟩ | ⟨guard, admits⟩ := refuses_or_admits store target
  · rw [enter_beginResume_refused refuses]
    exact comesBack_settled _ _ _ _ _
  · cases prepared :
      enterFromResume store.chunk arguments { store.processor target with guard := guard } with
    | mk entered processor =>
      have enters := enter_beginResume admits prepared world outer
      rw [enters] at attends ⊢
      have known := has_of_resumable admits.resumable
      have within : (store.modifyCoroutine target fun coroutine =>
          ⟨.running, .executing, coroutine.parent, processor⟩).Loops chunk limit target := by
        refine ⟨script, (Store.lasts_modifyCoroutine _ _ _).has known, ?_⟩
        rw [Store.processor, Store.coroutine_modifyCoroutine known]
        exact (resumeEntry_of_prepared prepared).fits ((fits target).congr rfl)
      exact (focusAt_comesBack forward within entered world attends).hand
        fun _ _ _ => ⟨_, _, _, rfl⟩

/-- What the host begins on the script's own processor, which is given back afterwards. Giving it
back is no iteration, so that the bound is that of what has begun. -/
theorem borrowing_comesBack {begin : Store → Turn} {bound : Nat} (world : W)
    (attends :
      Machine.Attends host (Machine.enter (Store.borrowing Store.main begin store) world []))
    (back :
      Machine.Attends host (Machine.enter (begin (store.setAccess Store.main .executing)) world
        [.release Store.main]) →
      Machine.ComesBack host [.release Store.main] bound
        (Machine.enter (begin (store.setAccess Store.main .executing)) world
          [.release Store.main])) :
    Machine.ComesBack host [] bound
      (Machine.enter (Store.borrowing Store.main begin store) world []) := by
  by_cases free : store.access Store.main = .free
  · rw [enter_borrowing free] at attends ⊢
    exact (back attends).hand fun _ _ _ => ⟨_, _, _, rfl⟩
  · rw [Store.borrowing, if_pos free]
    exact comesBack_settled _ _ _ _ _

end

/-- Whatever enters code from this store comes back after so many iterations at most, provided that
the functions of the host which are called meanwhile come to a result without entering code. -/
structure Store.Finishes (host : Host W) (bound : Nat) (store : Store) : Prop where
  calls : ∀ id, store.Has id → ∀ callee arguments (world : W) outer,
    (Machine.enter (store.beginCall id callee arguments) world outer).Attends host →
      (Machine.enter (store.beginCall id callee arguments) world outer).ComesBack host outer bound
  resumes : ∀ target arguments (world : W) outer,
    (Machine.enter (store.beginResume target arguments) world outer).Attends host →
      (Machine.enter (store.beginResume target arguments) world outer).ComesBack host outer bound
  operations : ∀ operation (world : W),
    (Machine.enter (Operation.begin operation store) world []).Attends host →
      (Machine.enter (Operation.begin operation store) world []).ComesBack host [] bound

/-- Code that neither jumps back nor resumes anything comes to an end wherever it is entered, after
a number of iterations that only the length of the code and the room for frames bound. What is left
grows smaller with every iteration, and it is within that number when the loop begins because frames
fit in every run. -/
theorem forward_code_finishes {V : Type} {earlier : Host V} {settings : Settings}
    {thread : ThreadId} {operations : List Operation} {before : Machine V} (forward : chunk.Forward)
    (reached : Machine.Reachable earlier (.initial chunk settings thread) operations before)
    (host : Host W) :
    before.store.Finishes host ((chunk.code.size + 1) ^ (settings.frameCapacity + 1)) := by
  obtain ⟨sound, lasts⟩ := reachable_sound (guardsAllowed earlier operations) reached
  have fits := reachable_fits reached
  have script : before.store.chunk = chunk := lasts.chunk
  have taken : (before.store.setAccess Store.main .executing).Loops chunk settings.frameCapacity
      Store.main := by
    refine ⟨script, (Store.lasts_modifyCoroutine _ _ _).has sound.orderly.main, ?_⟩
    rw [Store.setAccess, Store.processor, Store.coroutine_modifyCoroutine sound.orderly.main]
    exact fits Store.main
  have resumes : ∀ target arguments (world : W) outer,
      (Machine.enter (before.store.beginResume target arguments) world outer).Attends host →
        (Machine.enter (before.store.beginResume target arguments) world outer).ComesBack host outer
          (chunk.weight (settings.frameCapacity + 1)) :=
    fun target arguments world outer => resume_comesBack forward script fits target arguments world
  constructor
  · intro id known callee arguments world outer
    exact call_comesBack forward ⟨script, known, fits id⟩ callee arguments world
  · exact resumes
  · intro operation world attends
    cases operation with
    | call callee arguments =>
      exact borrowing_comesBack world attends
        (call_comesBack forward taken (some callee) arguments world)
    | callTop arguments =>
      exact borrowing_comesBack world attends (call_comesBack forward taken none arguments world)
    | push value =>
      refine borrowing_comesBack world attends fun _ => ?_
      simp only [Operation.pushMain]
      exact comesBack_settled _ _ _ _ _
    | resume target arguments => exact resumes target arguments world [] attends
    | create function => exact comesBack_settled _ _ _ _ _
    | edit change => exact comesBack_settled _ _ _ _ _

/-! ### A function that calls itself -/

/-- A main body that does nothing but call itself. -/
def recursingChunk : Chunk where
  functions := #[⟨"main", 0, 0, false⟩]
  code := #[.makeClosure 0 [], .call 0, .ret 1]

/-- The chunk above has no jump and no resume. -/
theorem recursingChunk_forward : recursingChunk.Forward where
  jumps := by
    intro place instruction target fetched isTarget
    rcases place with _ | _ | _ | place
    all_goals
      cases fetched
      try cases isTarget
  resumes := by
    intro place count fetched
    rcases place with _ | _ | _ | place
    all_goals cases fetched

/-- A host that says nothing ends each of its functions at once. -/
theorem silent_concludes {machine : Machine Unit} (begins : machine.focus.begins? = some id) :
    machine.Concludes Host.silent := by
  obtain ⟨function, arguments, stands⟩ := host_of_begins begins
  have wants : machine.request? Host.silent = some (.finish (.ok .nil)) := by
    simp only [Machine.request?, stands, Host.silent]
  exact .finishes wants

/-- The main body calls itself as often as there is room for, and comes back. -/
theorem recursion_finishes :
    (Machine.enter ((Operation.call .mainBody []).begin (.sample recursingChunk)) () []).ComesBack
      Host.silent [] 1024 := by
  have reached : Machine.Reachable Host.silent (.sample recursingChunk) []
      (.new (.sample recursingChunk) ()) := ⟨(), .stays⟩
  have finishes := forward_code_finishes recursingChunk_forward reached Host.silent
  exact finishes.operations (.call .mainBody []) () fun _ _ _ _ begins => silent_concludes begins

end CoroutineVM
