import CoroutineVM.Proofs.Machine.Chain

/-!
# Boundaries to the host

How often a processor has been entered is kept in three ways: its guard counts, every entry puts a
frame that returns to the host, and a call takes the permission to yield away until it is closed.
All three come to the same number, that of the calls and resumes of the processor which are still to
be closed, at every place where its code or a function of the host runs on it. A yield is therefore
refused exactly where it would have to cross a call that the host has made on the same processor.
-/

namespace CoroutineVM

open Processor

variable {W : Type} {host : Host W} {id : CoroutineId} {marks : List Mark}

/-- How many calls and resumes of a coroutine are still to be closed. -/
def inFlight (id : CoroutineId) (pending : List Pending) : Nat :=
  pending.countP fun waiting => waiting.closes? = some id

/-- What is still to be closed can be counted on the marks, about which all invariants of a machine
speak: every entry that waits to be closed leaves one mark, and the others leave none. -/
theorem inFlight_eq (id : CoroutineId) (pending : List Pending) :
    inFlight id pending = depth (CoroutineVM.marks id pending) := by
  induction pending with
  | nil => rfl
  | cons waiting rest inductionHypothesis =>
    rw [inFlight] at inductionHypothesis
    rw [inFlight, List.countP_cons, inductionHypothesis]
    cases waiting with
    | closeCall on valueHeight frameHeight mayYield stopwatch =>
      by_cases same : on = id <;> simp [marks_cons, Pending.mark?, Pending.closes?, same, depth]
    | closeResume target before stopwatch =>
      by_cases same : target = id <;> simp [marks_cons, Pending.mark?, Pending.closes?, same, depth]
    | _ =>
      rw [depth_waiting rfl]
      simp [Pending.closes?]

/-! ### Frames that return to the host -/

/-- Whether the host gets the result of this frame. -/
def Frame.entersHost (frame : Frame) : Bool := frame.returnPoint = .host

/-- Within one entry only the bottom frame returns to the host; those above it return to code. -/
theorem Level.countP_host {frames : List Frame} (level : Level frames) :
    frames.countP Frame.entersHost = 1 := by
  obtain ⟨inner, bottom, rfl, entered, others⟩ := level.outermost
  have none : inner.countP Frame.entersHost = 0 := by
    rw [List.countP_eq_zero]
    intro frame member
    simpa [Frame.entersHost] using others frame member
  rw [List.countP_append, none, List.countP_singleton, Frame.entersHost]
  simp [entered]

/-- Every entry that is to be closed has one frame that returns to the host, since the frames of an
entry are those of one level and its bottom frame is the only one that does so. -/
theorem Leveled.countP_host {frames : List Frame} (leveled : Leveled marks frames)
    (shaped : Shaped id marks) : frames.countP Frame.entersHost = depth marks := by
  induction marks generalizing frames with
  | nil =>
    obtain rfl : frames = [] := leveled
    rfl
  | cons mark rest inductionHypothesis =>
    cases mark with
    | call valueHeight frameHeight mayYield =>
      obtain ⟨inner, outer, rfl, _, level, below⟩ := leveled
      rw [List.countP_append, level.countP_host, inductionHypothesis below shaped.2, depth,
        Nat.add_comm]
    | resume before =>
      obtain ⟨_, _, rfl⟩ := shaped
      exact Level.countP_host leveled
    | wake => exact inductionHypothesis leveled shaped.2.2
    | borrow =>
      obtain ⟨_, rfl⟩ := shaped
      exact inductionHypothesis leveled trivial

/-! ### The permission to yield -/

/-- Code may yield only where it has been entered by a resume and by nothing else: a call takes the
permission away, and it is given back only when the call is closed. -/
theorem Flags.mayYield_iff {flag : Bool} (flags : Flags true marks flag) (shaped : Shaped id marks)
    (driven : Driven marks) : flag = true ↔ ∃ before, marks = [.resume before] := by
  cases marks with
  | nil => exact driven.elim
  | cons mark rest =>
    cases mark with
    | call valueHeight frameHeight mayYield => simp [flags.1]
    | resume before =>
      obtain ⟨_, _, rfl⟩ := shaped
      exact ⟨fun _ => ⟨before, rfl⟩, fun _ => flags⟩
    | wake => exact driven.elim
    | borrow => exact driven.elim

/-- That nothing but a resume is to be closed can be told from the number of entries and from which
coroutine it is. The script's own processor is never resumed, and on another one the outermost entry
is always a resume. -/
theorem Shaped.resume_iff_depth (shaped : Shaped id marks) (driven : Driven marks) :
    (∃ before, marks = [.resume before]) ↔ id ≠ Store.main ∧ depth marks = 1 := by
  cases marks with
  | nil => exact driven.elim
  | cons mark rest =>
    cases mark with
    | call valueHeight frameHeight mayYield =>
      refine ⟨fun ⟨_, same⟩ => (by cases same), fun ⟨other, once⟩ => ?_⟩
      obtain ⟨before, member⟩ := shaped.2.resumed other shaped.1.ne_nil
      have deep := depth_pos member
      rw [depth] at once
      omega
    | resume before =>
      obtain ⟨other, _, rfl⟩ := shaped
      exact ⟨fun _ => ⟨other, rfl⟩, fun _ => ⟨before, rfl⟩⟩
    | wake => exact driven.elim
    | borrow => exact driven.elim

/-- A call of the coroutine is to be closed. -/
def Called (id : CoroutineId) (pending : List Pending) : Prop :=
  ∃ valueHeight frameHeight mayYield stopwatch,
    .closeCall id valueHeight frameHeight mayYield stopwatch ∈ pending

/-- A call that is to be closed is seen on the marks. -/
theorem Called.mark {pending : List Pending} (called : Called id pending) :
    ∃ valueHeight frameHeight mayYield,
      .call valueHeight frameHeight mayYield ∈ CoroutineVM.marks id pending := by
  obtain ⟨valueHeight, frameHeight, mayYield, stopwatch, waits⟩ := called
  exact ⟨valueHeight, frameHeight, mayYield,
    List.mem_filterMap.mpr ⟨_, waits, Pending.mark_closeCall id _ _ _ stopwatch⟩⟩

/-- What the marks show as a call is a call that is to be closed. -/
theorem called_of_mark {pending : List Pending} {valueHeight frameHeight : Nat} {mayYield : Bool}
    (member : .call valueHeight frameHeight mayYield ∈ CoroutineVM.marks id pending) :
    Called id pending := by
  obtain ⟨waiting, waits, marked⟩ := List.mem_filterMap.mp member
  obtain ⟨stopwatch, rfl⟩ := Pending.of_mark marked
  exact ⟨valueHeight, frameHeight, mayYield, stopwatch, waits⟩

/-- Code has been entered by something else than a resume where it runs on the script's own
processor or within a call. -/
theorem Shaped.resume_iff_called {pending : List Pending}
    (shaped : Shaped id (CoroutineVM.marks id pending))
    (driven : Driven (CoroutineVM.marks id pending)) :
    (∃ before, CoroutineVM.marks id pending = [.resume before]) ↔
      ¬ (id = Store.main ∨ Called id pending) := by
  constructor
  · rintro ⟨before, same⟩ (isMain | called)
    · rw [same] at shaped
      exact shaped.1 isMain
    · obtain ⟨valueHeight, frameHeight, mayYield, member⟩ := called.mark
      rw [same] at member
      simp at member
  · intro outside
    cases same : CoroutineVM.marks id pending with
    | nil => exact absurd same driven.ne_nil
    | cons mark rest =>
      rw [same] at shaped driven
      cases mark with
      | call valueHeight frameHeight mayYield =>
        exact absurd (.inr (called_of_mark (by rw [same]; exact List.mem_cons_self))) outside
      | resume before =>
        obtain ⟨_, _, rfl⟩ := shaped
        exact ⟨before, rfl⟩
      | wake => exact driven.elim
      | borrow => exact driven.elim

/-! ### Yields -/

/-- A yield is refused exactly where the permission is missing. Whatever else can go wrong with a
yield ends in a different error, so that this one tells the permission. -/
theorem stepCode_yield_refused_iff {store : Store} {pointer count : Nat}
    (found : store.chunk.instruction? pointer = some (.yield count)) (id : CoroutineId) (world : W)
    (pending : List Pending) :
    (Machine.stepCode id pointer store world pending).focus =
        .settled (.error .yieldAcrossHostCall) ↔
      (store.processor id).mayYield = false := by
  have ends := Store.execute_yield_ends store id count (pointer + 1)
  rw [Attempt.Ends] at ends
  simp only [Machine.stepCode, found]
  split at ends
  next reached =>
    obtain ⟨allowed, ⟨value, rfl⟩, _⟩ := ends
    simp [reached, allowed]
  next reached => simp [reached, ends]

/-! ### Wherever a machine works -/

/-- Nothing has come to an outcome where a machine works on a coroutine, be it in code or in a
function of the host. -/
theorem unfinished_of_on {focus : Focus} (works : focus.on? = some id) (pending : List Pending) :
    (standing id focus pending).Unfinished := by
  rw [standing, if_pos (carrier_of_on works pending)]
  cases focus with
  | code on pointer => trivial
  | host on event => trivial
  | settled outcome => cases works

/-- How often a processor has been entered, told in every way in which it is kept. -/
structure Machine.Bounded (host : Host W) (trace : List (Stage W)) (machine : Machine W)
    (id : CoroutineId) : Prop where
  /-- Frames that return to the host, one for each call and each resume. -/
  frames : (machine.store.processor id).frames.toList.countP Frame.entersHost =
    inFlight id machine.pending
  /-- The nesting, unless a guard has been operated by hand, be it by a function of the host or
  between two operations. -/
  nesting : (∀ stage ∈ trace, stage.touchesGuard host = false) →
    (machine.store.processor id).guard.nesting = inFlight id machine.pending
  /-- The permission to yield. -/
  mayYield : (machine.store.processor id).mayYield = true ↔
    id ≠ Store.main ∧ inFlight id machine.pending = 1
  /-- A yield is refused on the script's own processor and within a call of the coroutine, whatever
  the coroutines do that have resumed it. -/
  yields : ∀ pointer count, machine.focus = .code id pointer →
    machine.store.chunk.instruction? pointer = some (.yield count) →
      ((machine.step host).focus = .settled (.error .yieldAcrossHostCall) ↔
        id = Store.main ∨ Called id machine.pending)

/-- The calls and resumes of a coroutine that are still to be closed, its frames that return to the
host, the nesting of its guard and its permission to yield agree wherever its code or a function of
the host runs on it. Only the nesting depends on what the host does with guards, and it does so in
two ways: the operations between two callbacks have to leave guards alone as well as the functions
of the host. -/
theorem boundaries_agree {chunk : Chunk} {settings : Settings} {thread : ThreadId} {world : W}
    {trace : List (Stage W)} {machine : Machine W}
    (traces : Machine.Traces host (.new (.initial chunk settings thread) world) trace machine)
    (works : machine.focus.on? = some id) : machine.Bounded host trace id := by
  have sound := (reachable_sound (guardsAllowed host _) ⟨_, traces.leads⟩).1
  have driven := driven_of_carrier sound.orderly.suits (carrier_of_on works machine.pending)
  have coroutine := sound.coroutines id
  have shaped : Shaped id (CoroutineVM.marks id machine.pending) := coroutine.handled.shaped
  have flags :
      Flags true (CoroutineVM.marks id machine.pending) (machine.store.processor id).mayYield :=
    coroutine.supplied.flags
  have leveled :=
    (coroutine.tiered.inUse (.inr driven.ne_nil)).whole (unfinished_of_on works _).whole
  have resumed := flags.mayYield_iff shaped driven
  refine ⟨?_, fun spares => ?_, ?_, fun pointer count coding found => ?_⟩
  · rw [inFlight_eq]
    exact (List.countP_reverse ..).symm.trans (leveled.countP_host shaped)
  · have untouched : ∀ stage ∈ trace, stage.touchesGuard host = true → False :=
      fun stage member touches => by simp [spares stage member] at touches
    have guarded :=
      ((traces_sound untouched traces).1.coroutines id).supplied.guard fun spared => spared
    rw [inFlight_eq]
    exact (congrArg ThreadGuard.nesting guarded).trans (nested_free_nesting _ _)
  · rw [inFlight_eq]
    exact resumed.trans (shaped.resume_iff_depth driven)
  · obtain ⟨store, world, focus, pending⟩ := machine
    obtain rfl : focus = .code id pointer := coding
    rw [Machine.step, stepCode_yield_refused_iff found, ← Bool.not_eq_true, resumed,
      shaped.resume_iff_called driven, not_not]

/-- The coroutine whose host function has just begun may yield after it, because only its resume is
to be closed. -/
theorem nested_boundaries :
    inFlight 1 nestedMachine.pending = 1 ∧
      ∃ trace, Machine.Traces Host.silent (.new (.sample nestingChunk) ()) trace nestedMachine ∧
        (∀ stage ∈ trace, stage.touchesGuard Host.silent = false) ∧
        nestedMachine.Bounded .silent trace 1 := by
  have once : inFlight 1 nestedMachine.pending = 1 := by
    decide +kernel
  have works : nestedMachine.focus.on? = some 1 := by
    decide +kernel
  obtain ⟨world, leads⟩ := reachable_nestedMachine
  obtain ⟨trace, traces, operations⟩ := Machine.Traces.exists_of_leads leads
  have plain : Stage.Plain Host.silent trace := by
    refine silent_plain fun operation member => ?_
    rw [operations] at member
    simp only [List.mem_cons, List.not_mem_nil, or_false] at member
    obtain rfl | rfl := member <;> rfl
  exact ⟨once, trace, traces, plain.spares, boundaries_agree traces works⟩

end CoroutineVM
