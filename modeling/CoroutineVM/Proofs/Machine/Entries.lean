import CoroutineVM.Proofs.Machine.Moves

/-!
# Entries as moves

A call or a resume begins at a machine where nothing has come to an outcome, and it ends at one
where the code of the coroutine stands at its entry point, or where the entry has been refused. The
lemmas give the moves that lead there. They do not ask who has begun the entry: a host function, an
instruction or the host of a script at rest differ only in who waits for the outcome.
-/

namespace CoroutineVM

open Processor Relation

variable {W : Type}

/-! ### Standings -/

/-- Where a coroutine stands while code runs: at the place of the code if it is the one that runs,
and apart otherwise. -/
theorem standing_code (id on : CoroutineId) (pointer : Nat) (pending : List Pending) :
    standing id (.code on pointer) pending = if on = id then .coding pointer else .apart := by
  simp [standing, Focus.carrier?, Focus.standing]

/-- While a function of the host runs. -/
theorem standing_host (id on : CoroutineId) (event : HostEvent) (pending : List Pending) :
    standing id (.host on event) pending = if on = id then .hosting else .apart := by
  simp [standing, Focus.carrier?, Focus.standing]

/-- When an outcome has been handed to someone who closes nothing, no coroutine stands anywhere. -/
theorem standing_other {id : CoroutineId} {outcome : Outcome} {pending : List Pending}
    (fits : Fits .other pending) : standing id (.settled outcome) pending = .apart := by
  simp [standing, carrier_of_other fits]

/-- When an outcome is about to be closed, it stands with the coroutine of that call or resume. -/
theorem standing_closing {id on : CoroutineId} {outcome : Outcome} {pending : List Pending}
    (fits : Fits (.closing on) pending) :
    standing id (.settled outcome) pending = if on = id then .ending outcome else .apart := by
  simp [standing, carrier_of_closing fits, Focus.standing]

/-- No call and no resume has come to an outcome that is about to be closed. -/
def Machine.Unfinished (machine : Machine W) : Prop :=
  ∀ id, (standing id machine.focus machine.pending).Unfinished

/-- Where code runs nothing has come to an outcome yet. -/
theorem unfinished_code {store : Store} {world : W} {on : CoroutineId} {pointer : Nat}
    {pending : List Pending} :
    Machine.Unfinished ⟨store, world, .code on pointer, pending⟩ := by
  intro id
  rw [standing_code]
  split <;> trivial

/-- Nor while a function of the host runs. -/
theorem unfinished_host {store : Store} {world : W} {on : CoroutineId} {event : HostEvent}
    {pending : List Pending} :
    Machine.Unfinished ⟨store, world, .host on event, pending⟩ := by
  intro id
  rw [standing_host]
  split <;> trivial

/-- Nor when an outcome has been handed to someone who closes nothing: it is that one's turn. -/
theorem unfinished_other {store : Store} {world : W} {outcome : Outcome} {pending : List Pending}
    (fits : Fits .other pending) :
    Machine.Unfinished ⟨store, world, .settled outcome, pending⟩ := by
  intro id
  rw [standing_other fits]
  trivial

/-- The machine works on a coroutine because of a mark: code, functions of the host and outcomes all
have someone behind them who closes what the coroutine does. -/
theorem driven_of_carrier {focus : Focus} {pending : List Pending} (suits : focus.Suits pending)
    {id : CoroutineId} (carries : focus.carrier? pending = some id) :
    Driven (marks id pending) := by
  cases focus with
  | code on pointer =>
    cases carries
    exact driven_of_closing suits
  | host on event =>
    cases carries
    exact driven_of_function suits
  | settled outcome =>
    cases suits with
    | inl fits =>
      rw [carrier_of_other fits] at carries
      cases carries
    | inr closing =>
      obtain ⟨on, fits⟩ := closing
      rw [carrier_of_closing fits] at carries
      cases carries
      exact driven_of_closing fits

/-- Nobody waits on a coroutine that is not there. -/
theorem Orderly.seen_gone {machine : Machine W} (orderly : Orderly machine) {id : CoroutineId}
    (unknown : ¬ machine.store.Has id) : machine.seen id = ⟨.gone, [], .apart⟩ := by
  have unmarked : marks id machine.pending = [] :=
    Classical.byContradiction fun marked => unknown (orderly.known id marked)
  have idle : machine.focus.carrier? machine.pending ≠ some id := by
    intro carries
    exact (driven_of_carrier orderly.suits carries).ne_nil unmarked
  rw [Machine.seen, Store.coroutine_gone unknown, unmarked, standing, if_neg idle]

/-! ### Machines that differ in one coroutine -/

/-- Whatever has not come to an outcome can be left for someone else to go on. -/
theorem course_apart {rules : Rules} {id : CoroutineId} {coroutine : Coroutine} {marks : List Mark}
    {before : Standing} (unfinished : before.Unfinished) :
    Course rules id ⟨coroutine, marks, before⟩ ⟨coroutine, marks, .apart⟩ :=
  .single (.inner (.leaves unfinished))

/-- When one coroutine has moved and the machine works on no other, the others have at most been
left or created. All steps that concern one coroutine are brought into this form. -/
theorem advances_of_actor {rules : Rules} {before after : Machine W} (actor : CoroutineId)
    (settings : rules.settings = before.store.settings) (orderly : Orderly before)
    (unfinished : ∀ other, other ≠ actor →
      (standing other before.focus before.pending).Unfinished)
    (lasts : Store.Lasts before.store after.store)
    (others : Store.Apart (· = actor) before.store after.store) (known : after.store.Has actor)
    (suits : after.focus.Suits after.pending)
    (carries : ∀ other, after.focus.carrier? after.pending = some other → other = actor)
    (sameMarks : ∀ other, other ≠ actor → marks other after.pending = marks other before.pending)
    (own : Course rules actor (before.seen actor) (after.seen actor)) :
    Advances rules before after := by
  refine ⟨lasts, ⟨suits, ?_, lasts.has orderly.main⟩, ?_⟩
  · intro id marked
    by_cases same : id = actor
    · exact same ▸ known
    · exact lasts.has (orderly.known id (sameMarks id same ▸ marked))
  · intro id
    by_cases same : id = actor
    · exact same ▸ own
    · have idle : standing id after.focus after.pending = .apart :=
        if_neg fun carried => same (carries id carried)
      cases others id same with
      | inl kept =>
        rw [Machine.seen, Machine.seen, kept, sameMarks id same, idle]
        exact course_apart (unfinished id same)
      | inr created =>
        obtain ⟨unknown, _, newborn⟩ := created
        have gone := orderly.seen_gone unknown
        have unmarked : marks id after.pending = [] :=
          (sameMarks id same).trans (congrArg Seen.marks gone)
        have other : id ≠ Store.main := fun isMain => unknown (isMain ▸ orderly.main)
        rw [gone, Machine.seen, idle, unmarked]
        exact .single (.born other (settings ▸ newborn))

/-- The same when the coroutine has been changed in its place, which says of all others that they
are as they were. -/
theorem advances_changed {rules : Rules} {machine : Machine W} {store : Store} {world : W}
    {focus : Focus} {pending : List Pending} (id : CoroutineId) (change : Coroutine → Coroutine)
    (settings : rules.settings = machine.store.settings) (orderly : Orderly machine)
    (unfinished : ∀ other, other ≠ id →
      (standing other machine.focus machine.pending).Unfinished)
    (known : machine.store.Has id) (lasts : Store.Lasts machine.store store)
    (same : store.coroutines = (machine.store.modifyCoroutine id change).coroutines)
    (suits : focus.Suits pending)
    (carries : ∀ other, focus.carrier? pending = some other → other = id)
    (sameMarks : ∀ other, other ≠ id → marks other pending = marks other machine.pending)
    (own : Course rules id (machine.seen id)
      ⟨change (machine.store.coroutine id), marks id pending, standing id focus pending⟩) :
    Advances rules machine ⟨store, world, focus, pending⟩ := by
  have reads : ∀ other, store.coroutine other =
      (machine.store.modifyCoroutine id change).coroutine other := Store.coroutine_congr same
  refine advances_of_actor id settings orderly unfinished lasts ?_ (lasts.has known) suits carries
    sameMarks ?_
  · intro other different
    exact .inl ((reads other).trans (Store.coroutine_modifyCoroutine_other different change))
  · rw [← Store.coroutine_modifyCoroutine known change, ← reads id] at own
    exact own

/-! ### Refused and admitted entries -/

/-- An entry can begin, whose outcome goes to those who wait outside of it. -/
structure Receptive (machine : Machine W) (outer : List Pending) : Prop where
  orderly : Orderly machine
  unfinished : machine.Unfinished
  suits : Fits .other outer
  sameMarks : ∀ id, marks id outer = marks id machine.pending

section

variable {machine : Machine W} {allowances : Allowances} {outer : List Pending}

/-- An outcome is handed to whoever waits outside, and the coroutines are as they were. -/
theorem Receptive.refuse (receptive : Receptive machine outer) (world : W) (outcome : Outcome) :
    Advances (machine.store.rules allowances) machine
      ⟨machine.store, world, .settled outcome, outer⟩ := by
  have orderly := receptive.orderly
  have sameMarks := receptive.sameMarks
  refine ⟨.refl _, ⟨.inl receptive.suits, ?_, orderly.main⟩, ?_⟩
  · intro id marked
    exact orderly.known id (sameMarks id ▸ marked)
  · intro id
    rw [Machine.seen, Machine.seen, sameMarks, standing_other receptive.suits]
    exact course_apart (receptive.unfinished id)

/-- After the preparation of an entry the machine works on the coroutine that was entered: at its
entry point, or with the error of the preparation. -/
theorem suits_focusAt {id : CoroutineId} {pending : List Pending}
    (fits : Fits (.closing id) pending) (entered : Except ScriptError Nat) :
    (Turn.focusAt id entered).Suits pending := by
  cases entered with
  | ok pointer => exact fits
  | error error => exact .inr ⟨id, fits⟩

/-- In both cases the coroutine carries what comes next. -/
theorem carrier_focusAt {id : CoroutineId} {pending : List Pending}
    (fits : Fits (.closing id) pending) (entered : Except ScriptError Nat) :
    (Turn.focusAt id entered).carrier? pending = some id := by
  cases entered with
  | ok pointer => rfl
  | error error => exact carrier_of_closing fits

/-- And there it stands. -/
theorem standing_focusAt {id : CoroutineId} {pending : List Pending}
    (fits : Fits (.closing id) pending) (entered : Except ScriptError Nat) :
    standing id (Turn.focusAt id entered) pending = .entered entered := by
  rw [standing, if_pos (carrier_focusAt fits entered)]
  cases entered <;> rfl

/-- Someone who closes what one coroutine does puts no mark on another one. -/
theorem mark_of_closes {waiting : Pending} {id other : CoroutineId}
    (closes : waiting.closes? = some id) (different : other ≠ id) : waiting.mark? other = none := by
  cases waiting <;> cases closes <;> simp [Pending.mark?, different.symm]

/-- An admitted entry moves the coroutine that is entered, and someone waits to close it. Calls and
resumes differ in the change that they make of the coroutine and in the mark that is left. -/
theorem Receptive.enter (receptive : Receptive machine outer) {id : CoroutineId}
    (known : machine.store.Has id) {close : Pending} {mark : Mark}
    (closes : close.closes? = some id) (marked : close.mark? id = some mark)
    {change : Coroutine → Coroutine} {entered : Except ScriptError Nat} (world : W)
    (move : Move (machine.store.rules allowances) id (machine.seen id)
      ⟨change (machine.store.coroutine id), mark :: marks id machine.pending, .entered entered⟩) :
    Advances (machine.store.rules allowances) machine
      ⟨machine.store.modifyCoroutine id change, world, Turn.focusAt id entered,
        close :: outer⟩ := by
  have fits : Fits (.closing id) (close :: outer) := ⟨closes, receptive.suits⟩
  refine advances_changed id change rfl receptive.orderly
    (fun other _ => receptive.unfinished other)
    known (Store.lasts_modifyCoroutine _ id change) rfl (suits_focusAt fits entered) ?_ ?_ ?_
  · intro other carried
    rw [carrier_focusAt fits] at carried
    exact (Option.some.inj carried).symm
  · intro other different
    rw [marks_cons, mark_of_closes closes different]
    exact receptive.sameMarks other
  · rw [marks_cons, marked, receptive.sameMarks, standing_focusAt fits]
    exact .single move

/-- The beginning of a call that is let in: its preparation, and someone who waits to close it with
the heights and the flag that were there before. -/
theorem enter_beginCall {store : Store} {id : CoroutineId} (known : store.Has id)
    {callee : Option Value} {arguments : List Value} {guard : ThreadGuard}
    (admitted : store.passGuard id = .ok guard) {entered : Except ScriptError Nat}
    {processor : Processor}
    (prepared : enterFromHost store.chunk callee arguments
      { store.processor id with guard := guard, mayYield := false } = (entered, processor))
    (world : W) (outer : List Pending) :
    Machine.enter (store.beginCall id callee arguments) world outer =
      ⟨store.modifyCoroutine id ({ · with processor := processor }), world,
        Turn.focusAt id entered,
        .closeCall id (floorOfCall callee (store.processor id)) (store.processor id).frames.height
          (store.processor id).mayYield (store.counters.start? .execution) :: outer⟩ := by
  rw [Store.processor] at prepared
  simp only [Store.beginCall, admitted, Store.onProcessor_eq, Store.setGuard, Store.modifyProcessor,
    Store.processor, Store.modifyCoroutine_twice, Store.coroutine_modifyCoroutine known, prepared,
    Machine.enter, List.singleton_append, floorOfCall]

/-- A call that is turned away leaves no trace, because the guard is passed before anything else. -/
theorem enter_beginCall_refused {store : Store} {id : CoroutineId} {callee : Option Value}
    {arguments : List Value} {error : ScriptError} (refused : store.passGuard id = .error error)
    (world : W) (outer : List Pending) :
    Machine.enter (store.beginCall id callee arguments) world outer =
      ⟨store, world, .settled (.error error), outer⟩ := by
  simp only [Store.beginCall, refused]
  rfl

/-- A call with a function of its own, of a coroutine that may have one called. -/
theorem Receptive.call (receptive : Receptive machine outer) {id : CoroutineId}
    (used : Usable (marks id machine.pending)) (callee : Value) (arguments : List Value)
    (world : W) :
    Advances (machine.store.rules allowances) machine
      (Machine.enter (machine.store.beginCall id (some callee) arguments) world outer) := by
  have known := receptive.orderly.known id used.ne_nil
  cases admitted : machine.store.passGuard id with
  | error error =>
    rw [enter_beginCall_refused admitted]
    exact receptive.refuse world _
  | ok guard =>
    rw [enter_beginCall known admitted rfl]
    refine receptive.enter known rfl (Pending.mark_closeCall id _ _ _ _) world ?_
    exact .inner (.calls used (receptive.unfinished id) admitted rfl)

/-- A call of the value on top of the script's own processor, which has been taken for the
operation. -/
theorem Receptive.callTop (receptive : Receptive machine outer) (allowed : allowances.fromTop)
    {rest : List Mark} (borrowed : marks Store.main machine.pending = .borrow :: rest)
    (arguments : List Value) (world : W) :
    Advances (machine.store.rules allowances) machine
      (Machine.enter (machine.store.beginCall Store.main none arguments) world outer) := by
  have known := receptive.orderly.main
  cases admitted : machine.store.passGuard Store.main with
  | error error =>
    rw [enter_beginCall_refused admitted]
    exact receptive.refuse world _
  | ok guard =>
    rw [enter_beginCall known admitted rfl]
    refine receptive.enter known rfl (Pending.mark_closeCall Store.main _ _ _ _) world ?_
    rw [Machine.seen, borrowed]
    exact .callsTop allowed rfl (receptive.unfinished _) admitted rfl

/-- A name that can be resumed is the name of a coroutine. -/
theorem has_of_resumable {store : Store} {id : CoroutineId}
    (resumable : (store.status id).isResumable = true) : store.Has id := by
  by_cases known : store.Has id
  · exact known
  · rw [Store.status, Store.coroutine_gone known] at resumable
    cases resumable

/-- The reasons for which a resume is turned away, with the error that each of them gives. -/
inductive Store.Refuses (store : Store) (target : CoroutineId) : ScriptError → Prop where
  | dead (dead : store.status target = .dead) : Store.Refuses store target .coroutineDead
  | unready (unready : (store.status target).isResumable = false)
      (alive : store.status target ≠ .dead) :
      Store.Refuses store target (.coroutineNotSuspended (store.status target))
  | used (resumable : (store.status target).isResumable = true)
      (used : store.access target ≠ .free) : Store.Refuses store target .processorBusy
  | foreign {error : ScriptError} (resumable : (store.status target).isResumable = true)
      (free : store.access target = .free) (refused : store.passGuard target = .error error) :
      Store.Refuses store target error

/-- A resume is let in if the coroutine can be resumed, its processor is free and its guard lets the
thread in. -/
structure Store.Admits (store : Store) (target : CoroutineId) (guard : ThreadGuard) : Prop where
  resumable : (store.status target).isResumable = true
  free : store.access target = .free
  admitted : store.passGuard target = .ok guard

/-- A resume is turned away or let in, and the reasons are looked at in the order in which they are
listed. -/
theorem refuses_or_admits (store : Store) (target : CoroutineId) :
    (∃ error, store.Refuses target error) ∨ ∃ guard, store.Admits target guard := by
  by_cases resumable : (store.status target).isResumable = true
  · by_cases free : store.access target = .free
    · cases admitted : store.passGuard target with
      | ok guard => exact .inr ⟨guard, resumable, free, admitted⟩
      | error error => exact .inl ⟨error, .foreign resumable free admitted⟩
    · exact .inl ⟨_, .used resumable free⟩
  · by_cases dead : store.status target = .dead
    · exact .inl ⟨_, .dead dead⟩
    · exact .inl ⟨_, .unready (by simpa using resumable) dead⟩

/-- A resume that is turned away leaves no trace: status, access and guard are looked at before any
of them is changed. -/
theorem enter_beginResume_refused {store : Store} {target : CoroutineId} {error : ScriptError}
    (refuses : store.Refuses target error) (arguments : List Value) (world : W)
    (outer : List Pending) :
    Machine.enter (store.beginResume target arguments) world outer =
      ⟨store, world, .settled (.error error), outer⟩ := by
  have alive : ∀ {status : CoroutineStatus}, status.isResumable = true → status ≠ .dead := by
    rintro status resumable rfl
    cases resumable
  cases refuses with
  | dead dead =>
    simp only [Store.beginResume, dead, if_true]
    rfl
  | unready unready notDead =>
    simp only [Store.beginResume, notDead, unready, if_false, Bool.not_false, if_true]
    rfl
  | used resumable used =>
    simp only [Store.beginResume, alive resumable, resumable, used, if_false, Bool.not_true,
      Bool.false_eq_true, ne_eq, not_false_eq_true, if_true]
    rfl
  | foreign resumable free refused =>
    simp only [Store.beginResume, alive resumable, resumable, free, refused, if_false,
      Bool.not_true, Bool.false_eq_true, ne_eq, not_true_eq_false]
    rfl

/-- The beginning of a resume that is let in. Its coroutine is running and in use, the guard is one
level deeper, and the status that is kept for the end is the one before. -/
theorem enter_beginResume {store : Store} {target : CoroutineId} {guard : ThreadGuard}
    (admits : store.Admits target guard) {arguments : List Value} {entered : Except ScriptError Nat}
    {processor : Processor}
    (prepared :
      enterFromResume store.chunk arguments { store.processor target with guard := guard } =
      (entered, processor)) (world : W) (outer : List Pending) :
    Machine.enter (store.beginResume target arguments) world outer =
      ⟨store.modifyCoroutine target fun coroutine =>
          ⟨.running, .executing, coroutine.parent, processor⟩, world, Turn.focusAt target entered,
        .closeResume target (store.status target) (store.counters.start? .resume) :: outer⟩ := by
  obtain ⟨resumable, free, admitted⟩ := admits
  have known := has_of_resumable resumable
  have alive : store.status target ≠ .dead := by
    intro dead
    rw [dead] at resumable
    cases resumable
  rw [Store.processor] at prepared
  simp only [Store.beginResume, alive, resumable, free, admitted, Store.onProcessor_eq,
    Store.setGuard, Store.setStatus, Store.setAccess, Store.modifyProcessor, Store.processor,
    Store.modifyCoroutine_twice, Store.coroutine_modifyCoroutine known, prepared, Machine.enter,
    List.singleton_append, if_false, Bool.not_true, Bool.false_eq_true, ne_eq, not_true_eq_false]

/-- A resume by a handle, refused or let in. -/
theorem Receptive.resume (receptive : Receptive machine outer) (target : CoroutineId)
    (arguments : List Value) (world : W) :
    Advances (machine.store.rules allowances) machine
      (Machine.enter (machine.store.beginResume target arguments) world outer) := by
  obtain ⟨error, refuses⟩ | ⟨guard, admits⟩ := refuses_or_admits machine.store target
  · rw [enter_beginResume_refused refuses]
    exact receptive.refuse world _
  · rw [enter_beginResume admits rfl]
    refine receptive.enter (has_of_resumable admits.resumable) rfl
      (Pending.mark_closeResume target _ _) world ?_
    exact .resumes (receptive.unfinished _) admits.resumable admits.free admits.admitted rfl

/-- Someone who closes nothing does not count as being in a coroutine. -/
theorem depth_waiting {waiting : Pending} (closes : waiting.closes? = none) (id : CoroutineId)
    (pending : List Pending) :
    depth (marks id (waiting :: pending)) = depth (marks id pending) := by
  rw [marks_cons]
  cases waiting with
  | closeCall on valueHeight frameHeight mayYield stopwatch => cases closes
  | closeResume target before stopwatch => cases closes
  | wake on =>
    rw [Pending.mark?]
    split <;> rfl
  | release on =>
    rw [Pending.mark?]
    split <;> rfl
  | _ => rfl

/-- Someone begins to wait on a coroutine whose call or resume goes on later. This only makes ready
for what comes next in the same step, so the mark is pushed before the entry that it is for. -/
theorem Receptive.await (receptive : Receptive machine outer) {id : CoroutineId}
    (known : machine.store.Has id) {waiting : Pending} {mark : Mark}
    (fits : Fits .other (waiting :: outer)) (closes : waiting.closes? = none)
    (marked : waiting.mark? id = some mark)
    (unmarked : ∀ other, other ≠ id → waiting.mark? other = none)
    (change : Coroutine → Coroutine)
    (kept : ∀ coroutine, (change coroutine).processor = coroutine.processor) (world : W)
    (outcome : Outcome)
    (move : Move (machine.store.rules allowances) id (machine.seen id)
      ⟨change (machine.store.coroutine id), mark :: marks id machine.pending, .apart⟩) :
    let after : Machine W :=
      ⟨machine.store.modifyCoroutine id change, world, .settled outcome, waiting :: outer⟩
    Advances (machine.store.rules allowances) machine after ∧
      ∀ other, Readies (machine.seen other) (after.seen other) := by
  refine ⟨advances_changed id change rfl receptive.orderly
    (fun other _ => receptive.unfinished other) known (Store.lasts_modifyCoroutine _ id change) rfl
    (.inl fits) ?_ ?_ ?_, fun other => ⟨?_, ?_⟩⟩
  · intro other carried
    rw [carrier_of_other fits] at carried
    cases carried
  · intro other different
    rw [marks_cons, unmarked other different]
    exact receptive.sameMarks other
  · rw [marks_cons, marked, receptive.sameMarks, standing_other fits]
    exact .single move
  · exact congrArg (fun processor => processor.frames.toList)
      (Store.read_modifyCoroutine Coroutine.processor kept machine.store id other)
  · exact (depth_waiting closes other outer).trans (congrArg depth (receptive.sameMarks other))

/-- An outcome that is handed to whoever waits first is a place where an entry can begin. -/
theorem receptive_settled {store : Store} {world : W} {outcome : Outcome} {pending : List Pending}
    (orderly : Orderly (⟨store, world, .settled outcome, pending⟩ : Machine W))
    (fits : Fits .other pending) :
    Receptive (⟨store, world, .settled outcome, pending⟩ : Machine W) pending :=
  ⟨orderly, unfinished_other fits, fits, fun _ => rfl⟩

/-- Someone who waits for what begins waits inside of all others. -/
theorem enter_andThen (turn : Turn) (waiting : Pending) (world : W) (outer : List Pending) :
    Machine.enter (turn.andThen waiting) world outer =
      Machine.enter turn world (waiting :: outer) := by
  simp [Machine.enter, Turn.andThen]

/-- A call through the handle of the script's own processor, once that is taken. -/
theorem enter_borrowing {store : Store} (free : store.access Store.main = .free)
    (begin : Store → Turn) (world : W) (outer : List Pending) :
    Machine.enter (Store.borrowing Store.main begin store) world outer =
      Machine.enter (begin (store.setAccess Store.main .executing)) world
        (.release Store.main :: outer) := by
  rw [Store.borrowing, if_neg (Decidable.not_not.mpr free), enter_andThen]

/-- A resume from another coroutine, which becomes normal first if it is running. The script's own
coroutine is never running, so it resumes without a change of its status. -/
theorem Receptive.childResume (receptive : Receptive machine outer) {id : CoroutineId}
    (driven : Driven (marks id machine.pending)) (target : CoroutineId) (arguments : List Value)
    (world : W) :
    Advances (machine.store.rules allowances) machine
      (Machine.enter (machine.store.beginChildResume id target arguments) world outer) := by
  rw [Store.beginChildResume]
  split
  next apart =>
    have known := receptive.orderly.known id driven.ne_nil
    have fits : Fits .other (.wake id :: outer) := receptive.suits
    obtain ⟨waits, ready⟩ := receptive.await known fits rfl (Pending.mark_wake id)
      (fun other different => by simp [Pending.mark?, different.symm])
      ({ · with status := .normal }) (fun _ => rfl) world (.error .coroutineDead)
      (.inner (.waits driven (receptive.unfinished id) apart.1))
    have middle := receptive_settled waits.orderly fits
    rw [enter_andThen]
    exact waits.trans ready (middle.resume target arguments world)
  next => exact receptive.resume target arguments world

/-- The script's own processor is taken, unless it is not free, and then it is entered. What is done
with it is left open, since calls and pushes begin in this way. -/
theorem Receptive.borrow (receptive : Receptive machine outer) (begin : Store → Turn) (world : W)
    (enters : ∀ outcome, Receptive (⟨machine.store.setAccess Store.main .executing, world,
        .settled outcome, .release Store.main :: outer⟩ : Machine W)
          (.release Store.main :: outer) →
      Advances (machine.store.rules allowances)
        ⟨machine.store.setAccess Store.main .executing, world, .settled outcome,
          .release Store.main :: outer⟩
        (Machine.enter (begin (machine.store.setAccess Store.main .executing)) world
          (.release Store.main :: outer))) :
    Advances (machine.store.rules allowances) machine
      (Machine.enter (Store.borrowing Store.main begin machine.store) world outer) := by
  rw [Store.borrowing]
  split
  next => exact receptive.refuse world _
  next free =>
    have fits : Fits .other (.release Store.main :: outer) := receptive.suits
    obtain ⟨borrows, ready⟩ := receptive.await receptive.orderly.main fits rfl
      (Pending.mark_release Store.main)
        (fun other different => by simp [Pending.mark?, different.symm])
      ({ · with access := .executing }) (fun _ => rfl) world
      (.error .processorBusy) (.borrows rfl (receptive.unfinished _) (Decidable.not_not.mp free))
    rw [enter_andThen]
    exact borrows.trans ready (enters _ (receptive_settled borrows.orderly fits))

/-- A function is called through the script, on its own processor. -/
theorem Receptive.scriptCall (receptive : Receptive machine outer) (callee : Value)
    (arguments : List Value) (world : W) :
    Advances (machine.store.rules allowances) machine
      (Machine.enter (machine.store.beginScriptCall callee arguments) world outer) :=
  receptive.borrow _ world fun _ middle => middle.call (by
    rw [marks_cons, Pending.mark_release]
    trivial) callee arguments world

end

end CoroutineVM
