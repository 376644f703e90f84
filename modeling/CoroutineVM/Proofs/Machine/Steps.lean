import CoroutineVM.Proofs.Machine.Entries
import CoroutineVM.Session

/-!
# Steps as moves

Whatever a machine does in one step, every coroutine makes moves only, and those who wait stay in
order. The same goes for the beginning of an operation. All that is needed is that those who wait
are in order before.
-/

namespace CoroutineVM

open Processor Relation

variable {W : Type} {allowances : Allowances}

/-! ### Code -/

section

variable {id : CoroutineId} {pointer : Nat} {store : Store} {world : W} {pending : List Pending}

/-- Code runs because of a mark, on a coroutine that there is. -/
theorem driven_code (orderly : Orderly (⟨store, world, .code id pointer, pending⟩ : Machine W)) :
    Driven (marks id pending) := driven_of_closing orderly.suits

/-- Code touches its processor and makes a move, with the same ones waiting as before. The others
are as they were or have been created, and this is the same for all instructions. -/
theorem advances_touched {relation : Processor → Processor → Prop} {after : Store} {focus : Focus}
    {later : List Pending}
    (orderly : Orderly (⟨store, world, .code id pointer, pending⟩ : Machine W))
    (touches : Store.Touches id relation store after) (suits : focus.Suits later)
    (carries : focus.carrier? later = some id)
    (sameMarks : ∀ other, marks other later = marks other pending)
    (own : ∀ processor, relation (store.processor id) processor →
      Move (store.rules allowances) id ⟨store.coroutine id, marks id pending, .coding pointer⟩
        ⟨{ store.coroutine id with processor := processor }, marks id pending, focus.standing⟩) :
    Advances (store.rules allowances) ⟨store, world, .code id pointer, pending⟩
      ⟨after, world, focus, later⟩ := by
  have known := orderly.known id (driven_code orderly).ne_nil
  obtain ⟨processor, became, reached⟩ := touches.own
  refine advances_of_actor id rfl orderly (fun other _ => unfinished_code other) touches.toLasts
    touches.others (touches.has known) suits ?_ (fun other _ => sameMarks other) ?_
  · intro other carried
    exact Option.some.inj (carried.symm.trans carries)
  · have before : Machine.seen ⟨store, world, .code id pointer, pending⟩ id =
        ⟨store.coroutine id, marks id pending, .coding pointer⟩ := by
      rw [Machine.seen, standing_code, if_pos rfl]
    have final : Machine.seen ⟨after, world, focus, later⟩ id =
        ⟨{ store.coroutine id with processor := processor }, marks id pending, focus.standing⟩ := by
      rw [Machine.seen, became, sameMarks, standing, if_pos carries]
    rw [before, final]
    exact .single (own processor reached)

/-- An instruction that fails leaves an error to whoever closes what its coroutine does. -/
theorem advances_fault {after : Store} {error : ScriptError}
    (orderly : Orderly (⟨store, world, .code id pointer, pending⟩ : Machine W))
    (touches : Store.Touches id Store.Falters store after) (allowed : allowances.errors error) :
    Advances (store.rules allowances) ⟨store, world, .code id pointer, pending⟩
      ⟨after, world, .settled (.error error), pending⟩ := by
  have fits : Fits (.closing id) pending := orderly.suits
  refine advances_touched orderly touches (.inr ⟨id, fits⟩) (carrier_of_closing fits)
    (fun _ => rfl) ?_
  intro processor effect
  exact .inner (.falters (driven_code orderly) effect allowed)

/-- One instruction. Its effect decides the move, and how it ends decides who comes next: the code
itself, a function of the host, another coroutine, or whoever closes. -/
theorem advances_code
    (orderly : Orderly (⟨store, world, .code id pointer, pending⟩ : Machine W))
    (own : ∀ error, error.isOwn = true → allowances.errors error) :
    Advances (store.rules allowances) ⟨store, world, .code id pointer, pending⟩
      (Machine.stepCode id pointer store world pending) := by
  have fits : Fits (.closing id) pending := orderly.suits
  have driven := driven_code orderly
  have known := orderly.known id driven.ne_nil
  rw [Machine.stepCode]
  split
  next =>
    exact advances_fault orderly (Store.touches_falters (Store.touches_refl store)) (own _ rfl)
  next instruction _ =>
    have effects := Store.execute_effects instruction (pointer + 1) known
    have moves : ∀ {flow processor},
        Store.Effect store.chunk flow (store.processor id) processor →
        Move (store.rules allowances) id ⟨store.coroutine id, marks id pending, .coding pointer⟩
          ⟨{ store.coroutine id with processor := processor }, marks id pending,
            .after pointer flow⟩ :=
      fun effect => .inner (.executes driven effect)
    split
    next error after reached =>
      obtain ⟨touches, raised⟩ := effects.of_error reached
      exact advances_fault orderly touches (own error raised)
    next next after reached =>
      exact advances_touched orderly (effects.of_ok reached) fits rfl (fun _ => rfl)
        fun _ effect => moves effect
    next value after reached =>
      exact advances_touched orderly (effects.of_ok reached) (.inr ⟨id, fits⟩)
        (carrier_of_closing fits) (fun _ => rfl) fun _ effect => moves effect
    next value resumeAt after reached =>
      exact advances_touched orderly (effects.of_ok reached) (.inr ⟨id, fits⟩)
        (carrier_of_closing fits) (fun _ => rfl) fun _ effect => moves effect
    next function arguments resumeAt after reached =>
      exact advances_touched orderly (effects.of_ok reached) ⟨rfl, fits⟩ rfl (fun _ => rfl)
        fun _ effect => moves effect
    next target arguments resumeAt after reached =>
      have works : Advances (store.rules allowances) ⟨store, world, .code id pointer, pending⟩
          ⟨after, world, .code id pointer, pending⟩ :=
        advances_touched orderly (effects.of_ok reached) fits rfl (fun _ => rfl)
          fun _ effect => moves effect
      have receptive : Receptive (⟨after, world, .code id pointer, pending⟩ : Machine W)
          (.resumeInstruction id resumeAt :: pending) :=
        ⟨works.orderly, unfinished_code, fits, fun _ => rfl⟩
      have lasts : Store.Lasts store after := works.lasts
      have ready : ∀ other, Readies (Machine.seen ⟨store, world, .code id pointer, pending⟩ other)
          (Machine.seen ⟨after, world, .code id pointer, pending⟩ other) :=
        fun other => ⟨(effects.of_ok reached).sameFrames
          (fun _ effect => effect.keepsOfResume.frames) other, rfl⟩
      refine works.trans ready ?_
      rw [← lasts.rules allowances]
      exact receptive.childResume driven target arguments world

end

/-! ### Changes without an entry -/

section

variable {machine : Machine W} {focus : Focus}

/-- Where the machine stands may look different, as long as no coroutine sees it. -/
structure SameStandings (machine : Machine W) (focus : Focus) : Prop where
  suits : focus.Suits machine.pending
  standings : ∀ id, standing id focus machine.pending = standing id machine.focus machine.pending

/-- Each coroutine is as it was, has been created, or has made one move that does not depend on its
marks. The changes that a host makes at its leisure are of this kind. -/
theorem advances_same {store : Store} (orderly : Orderly machine)
    (same : SameStandings machine focus) (lasts : Store.Lasts machine.store store)
    (coroutines : ∀ id, store.coroutine id = machine.store.coroutine id ∨
      (¬ machine.store.Has id ∧ Store.Newborn machine.store.settings (store.coroutine id)) ∨
      (machine.store.Has id ∧ ∀ marks standing,
        Move (machine.store.rules allowances) id ⟨machine.store.coroutine id, marks, standing⟩
          ⟨store.coroutine id, marks, standing⟩)) (world : W) :
    Advances (machine.store.rules allowances) machine ⟨store, world, focus, machine.pending⟩ := by
  refine ⟨lasts, ⟨same.suits, fun id marked => lasts.has (orderly.known id marked),
    lasts.has orderly.main⟩, ?_⟩
  intro id
  rw [Machine.seen, Machine.seen, same.standings id]
  obtain kept | ⟨unknown, newborn⟩ | ⟨_, moves⟩ := coroutines id
  · rw [kept]
    exact .stays _
  · have gone := orderly.seen_gone unknown
    rw [Machine.seen, Seen.mk.injEq] at gone
    obtain ⟨coroutine, unmarked, apart⟩ := gone
    rw [coroutine, unmarked, apart]
    exact .single (.born (fun isMain => unknown (isMain ▸ orderly.main)) newborn)
  · exact .single (moves _ _)

/-- One coroutine is changed, if it is there. -/
theorem advances_modify (orderly : Orderly machine) (same : SameStandings machine focus)
    (id : CoroutineId) (change : Coroutine → Coroutine)
    (move : ∀ marks standing,
      Move (machine.store.rules allowances) id ⟨machine.store.coroutine id, marks, standing⟩
        ⟨change (machine.store.coroutine id), marks, standing⟩) (world : W) :
    Advances (machine.store.rules allowances) machine
      ⟨machine.store.modifyCoroutine id change, world, focus, machine.pending⟩ := by
  refine advances_same orderly same (Store.lasts_modifyCoroutine _ id change) ?_ world
  intro other
  obtain unchanged | ⟨rfl, known, changed⟩ :=
    Store.coroutine_modify_cases machine.store id other change
  · exact .inl unchanged
  · refine .inr (.inr ⟨known, ?_⟩)
    rw [changed]
    exact move

/-- Whatever does not concern coroutines: tables, cells, counters and the debugger. -/
theorem advances_shared {store : Store} (orderly : Orderly machine)
    (same : SameStandings machine focus) (lasts : Store.Lasts machine.store store)
    (coroutines : store.coroutines = machine.store.coroutines) (world : W) :
    Advances (machine.store.rules allowances) machine ⟨store, world, focus, machine.pending⟩ :=
  advances_same orderly same lasts
    (fun id => .inl (Store.coroutine_congr coroutines id)) world

/-- The changes by hand. Only those of guards are moves that not every host may make; to take a
handle or to give it back is one that every coroutine allows, and the others concern no
coroutine. -/
theorem advances_edit (orderly : Orderly machine) (same : SameStandings machine focus)
    (change : Edit) (allowed : change.touchesGuard = true → allowances.guards) (world : W) :
    Advances (machine.store.rules allowances) machine
      ⟨machine.store.edit change, world, focus, machine.pending⟩ := by
  cases change with
  | hold id =>
    simp only [Store.edit, Store.hold]
    split
    · exact advances_shared orderly same (.refl _) rfl world
    next free =>
      exact advances_modify orderly same id _ (fun _ _ => .holds free (by simp)) world
  | letGo id =>
    simp only [Store.edit, Store.letGo]
    split
    next held =>
      have notRunning : (machine.store.coroutine id).access ≠ .executing := by
        rw [Store.access] at held
        simp [held]
      exact advances_modify orderly same id _ (fun _ _ => .holds notRunning (by simp)) world
    · exact advances_shared orderly same (.refl _) rfl world
  | enterGuard id thread =>
    simp only [Store.edit, Store.enterGuard]
    split
    next guard entered =>
      exact advances_modify orderly same id _
        (fun _ _ => .inner (.guarded (allowed rfl) (.inl ⟨thread, entered⟩))) world
    · exact advances_shared orderly same (.refl _) rfl world
  | leaveGuard id =>
    exact advances_modify orderly same id _
      (fun _ _ => .inner (.guarded (allowed rfl) (.inr rfl))) world
  | _ =>
    refine advances_shared orderly same ?_ ?_ world
    · exact ⟨rfl, rfl, rfl, Nat.le_refl _⟩
    · rfl

/-- A coroutine is created, or nothing happens. -/
theorem advances_spawn (orderly : Orderly machine) (same : SameStandings machine focus)
    (id : CoroutineId) (function : Value) (world : W) :
    Advances (machine.store.rules allowances) machine
      ⟨(Store.spawn id function machine.store).2, world, focus, machine.pending⟩ := by
  obtain unchanged | ⟨coroutine, newborn, created⟩ := Store.spawn_store id function machine.store
  · rw [unchanged]
    exact advances_shared orderly same (.refl _) rfl world
  · have touches := Store.touches_spawn orderly.main newborn
    rw [created]
    refine advances_same orderly same touches.toLasts ?_ world
    intro other
    by_cases isMain : other = Store.main
    · left
      subst isMain
      exact Store.coroutine_push_other (Nat.ne_of_lt orderly.main)
    · cases touches.others other isMain with
      | inl kept => exact .inl kept
      | inr born => exact .inr (.inl ⟨born.1, born.2.2⟩)

end

/-! ### The host -/

section

variable {id : CoroutineId} {event : HostEvent} {store : Store} {world : W} {pending : List Pending}

/-- A host function goes on in another way, or hears of something else. No coroutine sees which of
its functions the host is in. -/
theorem sameStandings_host (orderly : Orderly (⟨store, world, .host id event, pending⟩ : Machine W))
    (next : HostEvent) :
    SameStandings (⟨store, world, .host id event, pending⟩ : Machine W) (.host id next) where
  suits := orderly.suits
  standings := fun _ => by rw [standing_host, standing_host]

/-- Whoever waits for a host function closes nothing itself. -/
theorem other_of_function (fits : Fits (.function id) pending) : Fits .other pending := by
  cases pending with
  | nil => exact fits.elim
  | cons waiting rest =>
    cases waiting with
    | hostFunction on resumeAt => exact fits.1 ▸ fits.2
    | _ => exact fits.elim

/-- A function of the host is a place where an entry can begin, with the code that waits for it or
with someone who waits inside of that. -/
theorem receptive_host {outer : List Pending}
    (orderly : Orderly (⟨store, world, .host id event, pending⟩ : Machine W))
    (suits : Fits .other outer) (sameMarks : ∀ other, marks other outer = marks other pending) :
    Receptive (⟨store, world, .host id event, pending⟩ : Machine W) outer :=
  ⟨orderly, unfinished_host, suits, sameMarks⟩

/-- One request of a host function. Those that enter begin there and leave the host waiting, and the
others are answered at once. -/
theorem advances_request (later : W) (request : Request)
    (orderly : Orderly (⟨store, world, .host id event, pending⟩ : Machine W))
    (allowed : request.touchesGuard = true → allowances.guards) :
    Advances (store.rules allowances) ⟨store, world, .host id event, pending⟩
      (Machine.stepRequest id request store later pending) := by
  have fits : Fits (.function id) pending := orderly.suits
  have driven : Driven (marks id pending) := driven_of_function fits
  have calling : Receptive (⟨store, world, .host id event, pending⟩ : Machine W)
      (.hostCall id :: pending) := receptive_host orderly fits fun _ => rfl
  have resuming : Receptive (⟨store, world, .host id event, pending⟩ : Machine W)
      (.hostResume id :: pending) := receptive_host orderly fits fun _ => rfl
  cases request with
  | finish outcome =>
    exact (receptive_host orderly (other_of_function fits) fun _ => rfl).refuse later _
  | call callee arguments => exact calling.call driven.usable callee arguments later
  | resume target arguments => exact resuming.childResume driven target arguments later
  | create function =>
    exact advances_spawn orderly (sameStandings_host orderly _) id function later
  | setGlobal name value =>
    exact advances_edit orderly (sameStandings_host orderly _) _
      (fun touches => by cases touches) later
  | callScript callee arguments => exact calling.scriptCall callee arguments later
  | resumeHandle target arguments => exact resuming.resume target arguments later
  | enterGuard thread =>
    simp only [Machine.stepRequest]
    split
    next guard entered =>
      exact advances_modify orderly (sameStandings_host orderly _) id _
        (fun _ _ => .inner (.guarded (allowed rfl) (.inl ⟨thread, entered⟩))) later
    · exact advances_shared orderly (sameStandings_host orderly _) (.refl _) rfl later
  | attach debugger =>
    exact advances_edit orderly (sameStandings_host orderly _) _
      (fun touches => by cases touches) later
  | resetCounters =>
    exact advances_edit orderly (sameStandings_host orderly _) _
      (fun touches => by cases touches) later
  | edit change => exact advances_edit orderly (sameStandings_host orderly _) change allowed later

end

/-! ### Outcomes -/

section

variable {id : CoroutineId} {store : Store} {world : W} {outcome : Outcome} {waiting : Pending}
  {pending : List Pending}

/-- Whoever waits without a mark is left out of what coroutines see. -/
theorem marks_unmarked (unmarked : ∀ other, waiting.mark? other = none) (other : CoroutineId) :
    marks other (waiting :: pending) = marks other pending := by
  rw [marks_cons, unmarked]
  rfl

/-- An outcome that is handed on makes its coroutine go on, or fail there. Nobody else is concerned,
and the one who has waited waits no longer. -/
theorem advances_handed {processor : Processor} {focus : Focus}
    (orderly : Orderly (⟨store, world, .settled outcome, waiting :: pending⟩ : Machine W))
    (unmarked : ∀ other, waiting.mark? other = none) (fits : Fits .other (waiting :: pending))
    (suits : focus.Suits pending) (carries : focus.carrier? pending = some id)
    (keeps : Keeps (store.processor id) processor)
    (reaches : focus.standing.Unfinished ∨
      ∃ error, allowances.errors error ∧ focus.standing = .ending (.error error)) :
    Advances (store.rules allowances) ⟨store, world, .settled outcome, waiting :: pending⟩
      ⟨store.modifyProcessor id fun _ => processor, world, focus, pending⟩ := by
  have driven := driven_of_carrier suits carries
  have marked : marks id (waiting :: pending) ≠ [] := by
    rw [marks_unmarked unmarked]
    exact driven.ne_nil
  refine advances_changed id _ rfl orderly (fun other _ => unfinished_other fits other)
    (orderly.known id marked) (Store.lasts_modifyCoroutine _ _ _) rfl suits ?_
    (fun other _ => (marks_unmarked unmarked other).symm) ?_
  · intro other carried
    exact Option.some.inj (carried.symm.trans carries)
  · rw [Machine.seen, standing_other fits, marks_unmarked unmarked, standing, if_pos carries]
    exact .single (.inner (.works driven keeps trivial reaches))

/-- The same when the processor stays as it is: an error is passed on, or a host function is
told. -/
theorem advances_passed {focus : Focus}
    (orderly : Orderly (⟨store, world, .settled outcome, waiting :: pending⟩ : Machine W))
    (unmarked : ∀ other, waiting.mark? other = none) (fits : Fits .other (waiting :: pending))
    (suits : focus.Suits pending) (carries : focus.carrier? pending = some id)
    (reaches : focus.standing.Unfinished ∨
      ∃ error, allowances.errors error ∧ focus.standing = .ending (.error error)) :
    Advances (store.rules allowances) ⟨store, world, .settled outcome, waiting :: pending⟩
      ⟨store, world, focus, pending⟩ := by
  have handed : Advances (store.rules allowances) _ _ :=
    advances_handed orderly unmarked fits suits carries (Keeps.refl _) reaches
  rw [Store.modifyProcessor_same] at handed
  exact handed

/-- A result is pushed for code that has waited for it. If there is no room the code fails at that
place, with an error of its own. -/
theorem advances_pushResult {resumeAt : Nat}
    (orderly : Orderly (⟨store, world, .settled outcome, waiting :: pending⟩ : Machine W))
    (unmarked : ∀ other, waiting.mark? other = none) (fits : Fits .other (waiting :: pending))
    (closing : Fits (.closing id) pending) (value : Value)
    (own : ∀ error, error.isOwn = true → allowances.errors error) :
    Advances (store.rules allowances) ⟨store, world, .settled outcome, waiting :: pending⟩
      (Machine.pushResult id resumeAt value store world pending) := by
  obtain ⟨result, processor, grows, itsOwn, pushes⟩ := Store.push_cases id value store
  rw [Machine.pushResult, pushes]
  cases result with
  | ok done => exact advances_handed orderly unmarked fits closing rfl grows.keeps (.inl trivial)
  | error error =>
    exact advances_handed orderly unmarked fits (.inr ⟨id, closing⟩) (carrier_of_closing closing)
      grows.keeps (.inr ⟨error, own error (itsOwn error rfl), rfl⟩)

/-- A call or a resume is closed, and its outcome goes to someone else. How the coroutine has been
changed is the move that the caller gives. -/
theorem advances_closed {mark : Mark} {change : Coroutine → Coroutine} {after : Store}
    (orderly : Orderly (⟨store, world, .settled outcome, waiting :: pending⟩ : Machine W))
    (closes : waiting.closes? = some id) (fits : Fits .other pending)
    (marked : waiting.mark? id = some mark) (lasts : Store.Lasts store after)
    (same : after.coroutines = (store.modifyCoroutine id change).coroutines)
    (move : Move (store.rules allowances) id
      ⟨store.coroutine id, mark :: marks id pending, .ending outcome⟩
      ⟨change (store.coroutine id), marks id pending, .apart⟩) (later : W) (result : Outcome) :
    Advances (store.rules allowances) ⟨store, world, .settled outcome, waiting :: pending⟩
      ⟨after, later, .settled result, pending⟩ := by
  have closing : Fits (.closing id) (waiting :: pending) := ⟨closes, fits⟩
  have own : marks id (waiting :: pending) = mark :: marks id pending := by
    rw [marks_cons, marked]
    rfl
  refine advances_changed id change rfl orderly ?_ (orderly.known id (by simp [own])) lasts same
    (.inl fits) ?_ ?_ ?_
  · intro other different
    rw [standing_closing closing, if_neg different.symm]
    trivial
  · intro other carried
    rw [carrier_of_other fits] at carried
    cases carried
  · intro other different
    rw [marks_cons, mark_of_closes closes different]
    rfl
  · rw [Machine.seen, own, standing_closing closing, if_pos rfl, standing_other fits]
    exact .single move

/-- Someone who has waited on a coroutine that goes on later lets it go: it is woken or given
back. -/
theorem advances_released {mark : Mark} {change : Coroutine → Coroutine}
    (orderly : Orderly (⟨store, world, .settled outcome, waiting :: pending⟩ : Machine W))
    (closes : waiting.closes? = none) (fits : Fits .other pending)
    (marked : waiting.mark? id = some mark)
    (unmarked : ∀ other, other ≠ id → waiting.mark? other = none)
    (move : Move (store.rules allowances) id
      ⟨store.coroutine id, mark :: marks id pending, .apart⟩
      ⟨change (store.coroutine id), marks id pending, .apart⟩) :
    Advances (store.rules allowances) ⟨store, world, .settled outcome, waiting :: pending⟩
      ⟨store.modifyCoroutine id change, world, .settled outcome, pending⟩ := by
  have own : marks id (waiting :: pending) = mark :: marks id pending := by
    rw [marks_cons, marked]
    rfl
  have apart : ∀ other,
      standing other (.settled outcome) (waiting :: pending) = .apart := by
    intro other
    simp [standing, Focus.carrier?, closes]
  refine advances_changed id change rfl orderly ?_ (orderly.known id (by simp [own]))
    (Store.lasts_modifyCoroutine _ _ _) rfl (.inl fits) ?_ ?_ ?_
  · intro other _
    rw [apart]
    trivial
  · intro other carried
    rw [carrier_of_other fits] at carried
    cases carried
  · intro other different
    rw [marks_cons, unmarked other different]
    rfl
  · rw [Machine.seen, own, apart, standing_other fits]
    exact .single move

/-! ### Closing -/

/-- A stopwatch is stopped in the counters. -/
theorem coroutines_stopWatch (stopwatch : Option Stopwatch) (store : Store) :
    (Machine.stopWatch stopwatch store).coroutines = store.coroutines ∧
      Store.Lasts store (Machine.stopWatch stopwatch store) := by
  cases stopwatch with
  | none => exact ⟨rfl, .refl _⟩
  | some stopwatch => exact ⟨rfl, rfl, rfl, rfl, Nat.le_refl _⟩

/-- Whoever is told about the end of an execution, only the guard has changed. -/
theorem coroutines_leaveGuard (host : Host W) (id : CoroutineId) (store : Store) (world : W) :
    (Machine.leaveGuard host id store world).1.coroutines =
        (store.setGuard id (store.processor id).guard.leave.2).coroutines ∧
      Store.Lasts store (Machine.leaveGuard host id store world).1 := by
  have lasts := Store.lasts_modifyCoroutine store id fun coroutine =>
    { coroutine with
      processor := { coroutine.processor with guard := (store.processor id).guard.leave.2 } }
  simp only [Machine.leaveGuard]
  split
  · exact ⟨rfl, lasts.trans ⟨rfl, rfl, rfl, Nat.le_refl _⟩⟩
  · exact ⟨rfl, lasts⟩

/-- Whatever else is done when a call or a resume is closed, its processor is changed and its guard
is left. The change is made first and the guard is left after it, so that the two are brought
together into one change of the coroutine. -/
theorem coroutines_closing (host : Host W) (known : store.Has id) {change : Processor → Processor}
    (sameGuard : (change (store.processor id)).guard = (store.processor id).guard)
    (stopwatch : Option Stopwatch) (world : W) :
    let closed := Machine.leaveGuard host id
      (Machine.stopWatch stopwatch (store.modifyProcessor id change)) world
    closed.1.coroutines = (store.modifyCoroutine id fun coroutine =>
        { coroutine with
          processor := { change coroutine.processor with
            guard := (store.processor id).guard.leave.2 } }).coroutines ∧
      Store.Lasts store closed.1 := by
  intro closed
  obtain ⟨stopped, stopLasts⟩ := coroutines_stopWatch stopwatch (store.modifyProcessor id change)
  obtain ⟨left, leaveLasts⟩ := coroutines_leaveGuard host id
    (Machine.stopWatch stopwatch (store.modifyProcessor id change)) world
  have guard :
      ((Machine.stopWatch stopwatch (store.modifyProcessor id change)).processor id).guard =
      (store.processor id).guard := by
    rw [← sameGuard, Store.processor, Store.coroutine_congr stopped, Store.modifyProcessor,
      Store.coroutine_modifyCoroutine known]
    rfl
  refine ⟨?_, ((Store.lasts_modifyCoroutine _ _ _).trans stopLasts).trans leaveLasts⟩
  rw [left, guard]
  exact (Store.modifyCoroutine_congr stopped id _).trans
    (congrArg Store.coroutines (Store.modifyCoroutine_twice store id _ _))

/-- The end of a resume, seen from its coroutine: status, access and processor in one change. The
guard is left in the same step, so that all four go together. -/
theorem coroutines_closeResume (host : Host W) (known : store.Has id) (before : CoroutineStatus)
    (stopwatch : Option Stopwatch) (outcome : Outcome) (world : W) :
    let closed := Machine.closeResume host id before stopwatch outcome store world
    closed.1.coroutines = (store.modifyCoroutine id fun coroutine =>
        ⟨Machine.statusAfter before outcome, .free, coroutine.parent,
          { Machine.processorAfter outcome coroutine.processor with
            guard := (store.processor id).guard.leave.2 }⟩).coroutines ∧
      Store.Lasts store closed.1 := by
  have sameGuard : (Machine.processorAfter outcome (store.processor id)).guard =
      (store.processor id).guard := by
    unfold Machine.processorAfter
    split <;> rfl
  obtain ⟨coroutines, lasts⟩ := coroutines_closing host known sameGuard stopwatch world
  refine ⟨?_, (lasts.trans (Store.lasts_modifyCoroutine _ _ _)).trans
    (Store.lasts_modifyCoroutine _ _ _)⟩
  simp only [Machine.closeResume, Store.setStatus, Store.setAccess, Store.modifyCoroutine_twice]
  rw [Store.modifyCoroutine_congr coroutines, Store.modifyCoroutine_twice]

/-- The end of a call is the move that closes it. -/
theorem advances_closeCall (host : Host W) {valueHeight frameHeight : Nat} {mayYield : Bool}
    {stopwatch : Option Stopwatch}
    (orderly : Orderly (⟨store, world, .settled outcome,
      .closeCall id valueHeight frameHeight mayYield stopwatch :: pending⟩ : Machine W))
    (fits : Fits .other pending) :
    Advances (store.rules allowances)
      ⟨store, world, .settled outcome,
        .closeCall id valueHeight frameHeight mayYield stopwatch :: pending⟩
      (Machine.stepSettled host outcome (.closeCall id valueHeight frameHeight mayYield stopwatch)
        store world pending) := by
  have marked := Pending.mark_closeCall id valueHeight frameHeight mayYield stopwatch
  have known : store.Has id := orderly.known id (by simp [marks_cons, marked])
  have sameGuard : (restore valueHeight frameHeight mayYield (store.processor id)).guard =
      (store.processor id).guard := rfl
  obtain ⟨coroutines, lasts⟩ := coroutines_closing host known sameGuard stopwatch world
  exact advances_closed orderly rfl fits marked lasts coroutines (.inner .closesCall) _ _

/-- So is the end of a resume. -/
theorem advances_closeResume (host : Host W) {before : CoroutineStatus}
    {stopwatch : Option Stopwatch}
    (orderly : Orderly (⟨store, world, .settled outcome,
      .closeResume id before stopwatch :: pending⟩ : Machine W))
    (fits : Fits .other pending) :
    Advances (store.rules allowances)
      ⟨store, world, .settled outcome, .closeResume id before stopwatch :: pending⟩
      (Machine.stepSettled host outcome
        (.closeResume id before stopwatch) store world pending) := by
  have marked := Pending.mark_closeResume id before stopwatch
  have known : store.Has id := orderly.known id (by simp [marks_cons, marked])
  obtain ⟨coroutines, lasts⟩ := coroutines_closeResume host known before stopwatch outcome world
  exact advances_closed orderly rfl fits marked lasts coroutines .closesResume _ _

/-- An outcome is handed to the one who waits, one case for each of them: an end of a call or a
resume, a result for code or for a function of the host, or a coroutine that is woken or given
back. -/
theorem advances_settled (host : Host W)
    (orderly : Orderly (⟨store, world, .settled outcome, waiting :: pending⟩ : Machine W))
    (own : ∀ error, error.isOwn = true → allowances.errors error)
    (surfaced : ∀ error, outcome = .error error → allowances.errors error) :
    Advances (store.rules allowances) ⟨store, world, .settled outcome, waiting :: pending⟩
      (Machine.stepSettled host outcome waiting store world pending) := by
  have suits : Fits .other (waiting :: pending) ∨ ∃ id, Fits (.closing id) (waiting :: pending) :=
    orderly.suits
  cases waiting with
  | hostFunction on resumeAt =>
    have fits : Fits .other (.hostFunction on resumeAt :: pending) := fits_other_of_closes rfl suits
    cases outcome with
    | ok exit => exact advances_pushResult orderly (fun _ => rfl) fits fits _ own
    | error error =>
      exact advances_passed orderly (fun _ => rfl) fits (.inr ⟨on, fits⟩) (carrier_of_closing fits)
        (.inr ⟨error, surfaced error rfl, rfl⟩)
  | resumeInstruction on resumeAt =>
    have fits : Fits .other (.resumeInstruction on resumeAt :: pending) :=
      fits_other_of_closes rfl suits
    cases outcome with
    | ok exit => exact advances_pushResult orderly (fun _ => rfl) fits fits _ own
    | error error =>
      simp only [Machine.stepSettled]
      split
      · exact advances_passed orderly (fun _ => rfl) fits (.inr ⟨on, fits⟩)
          (carrier_of_closing fits) (.inr ⟨error, surfaced error rfl, rfl⟩)
      · exact advances_pushResult orderly (fun _ => rfl) fits fits _ own
  | closeCall on valueHeight frameHeight mayYield stopwatch =>
    obtain ⟨id, closes, fits⟩ := suits.resolve_left fun other => other.elim
    exact advances_closeCall host orderly fits
  | closeResume target before stopwatch =>
    obtain ⟨id, closes, fits⟩ := suits.resolve_left fun other => other.elim
    exact advances_closeResume host orderly fits
  | wake on =>
    have fits : Fits .other (.wake on :: pending) := fits_other_of_closes rfl suits
    exact advances_released orderly rfl fits (Pending.mark_wake on)
      (fun other different => by simp [Pending.mark?, different.symm]) (.inner .wakes)
  | release on =>
    have fits : Fits .other (.release on :: pending) := fits_other_of_closes rfl suits
    exact advances_released orderly rfl fits (Pending.mark_release on)
      (fun other different => by simp [Pending.mark?, different.symm]) .releases
  | hostCall on =>
    have fits : Fits .other (.hostCall on :: pending) := fits_other_of_closes rfl suits
    exact advances_passed orderly (fun _ => rfl) fits fits rfl (.inl trivial)
  | hostResume on =>
    have fits : Fits .other (.hostResume on :: pending) := fits_other_of_closes rfl suits
    exact advances_passed orderly (fun _ => rfl) fits fits rfl (.inl trivial)

end

/-! ### Steps and operations -/

/-- One step of a machine, whatever it stands at. Errors that surface have been allowed before, or
they come from an instruction. -/
theorem step_advances (host : Host W) {machine : Machine W} (orderly : Orderly machine)
    (own : ∀ error, error.isOwn = true → allowances.errors error)
    (surfaced : ∀ error, machine.focus = .settled (.error error) → allowances.errors error)
    (allowed : ∀ request, machine.request? host = some request → request.touchesGuard = true →
      allowances.guards) :
    Advances (machine.store.rules allowances) machine (machine.step host) := by
  obtain ⟨store, world, focus, pending⟩ := machine
  cases focus with
  | code id pointer => exact advances_code orderly own
  | host id event => exact advances_request _ _ orderly (allowed _ rfl)
  | settled outcome =>
    cases pending with
    | nil => exact ⟨.refl _, orderly, fun _ => .stays _⟩
    | cons waiting pending =>
      exact advances_settled host orderly own fun error same => surfaced error (by rw [same])

/-- A value is put on top of the script's own stack while the processor is borrowed. -/
theorem advances_pushMain {store : Store} {world : W} {outcome : Outcome}
    (orderly : Orderly (⟨store, world, .settled outcome, [.release Store.main]⟩ : Machine W))
    (value : Value) (later : W) :
    Advances (store.rules allowances) ⟨store, world, .settled outcome, [.release Store.main]⟩
      (Machine.enter (Operation.pushMain value store) later [.release Store.main]) := by
  have fits : Fits .other [.release Store.main] := trivial
  obtain ⟨result, processor, grows, _, pushes⟩ := Store.push_cases Store.main value store
  rw [Operation.pushMain, pushes]
  refine advances_changed Store.main _ rfl orderly (fun other _ => unfinished_other fits other)
    orderly.main (Store.lasts_modifyCoroutine _ _ _) rfl (.inl fits) ?_ (fun _ _ => rfl) ?_
  · intro other carried
    cases carried
  · exact .single (.pushes rfl grows)

/-- The beginning of an operation on a script at rest, where nobody waits. A call or a resume is one
move of its coroutine, and everything else is a change by hand. -/
theorem begin_advances {store : Store} {world : W} {outcome : Outcome} (operation : Operation)
    (orderly : Orderly (⟨store, world, .settled outcome, []⟩ : Machine W))
    (allowed : operation.touchesGuard = true → allowances.guards)
    (fromTop : operation.isCallTop = true → allowances.fromTop) (later : W) :
    Advances (store.rules allowances) ⟨store, world, .settled outcome, []⟩
      (Machine.enter (operation.begin store) later []) := by
  have receptive : Receptive (⟨store, world, .settled outcome, []⟩ : Machine W) [] :=
    receptive_settled orderly trivial
  have same : ∀ result, SameStandings (⟨store, world, .settled outcome, []⟩ : Machine W)
      (.settled result) := fun result => ⟨.inl trivial, fun _ => rfl⟩
  cases operation with
  | call callee arguments => exact receptive.scriptCall callee arguments later
  | callTop arguments =>
    exact receptive.borrow _ later fun _ middle => middle.callTop (fromTop rfl) rfl arguments later
  | push value =>
    exact receptive.borrow _ later fun _ middle => advances_pushMain middle.orderly value later
  | resume target arguments => exact receptive.resume target arguments later
  | create function =>
    exact advances_spawn orderly (same _) Store.main function.collapse later
  | edit change => exact advances_edit orderly (same _) change allowed later

end CoroutineVM
