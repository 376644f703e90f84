import CoroutineVM.Proofs.Machine.Chain
import CoroutineVM.Proofs.Machine.Traces

/-!
# Resumes and calls past the one who is running

A coroutine that resumes another one becomes normal and waits to be woken, so that only one is
running. This happens where code or a function of the host resumes from the coroutine that it runs
on. A handle knows nobody who could become normal: whoever is resumed through one runs beside the
coroutine whose function has used it. The statuses still tell exactly who waits to be woken, and the
law of the one running coroutine is kept as long as functions of the host leave handles alone that
do not run on the script's own processor.
-/

namespace CoroutineVM

variable {W : Type} {host : Host W} {id : CoroutineId}

/-- At most one coroutine is running, and every other one whose processor is executing is normal,
but for the script's own one, which has a status to itself. -/
structure Store.OneRuns (store : Store) : Prop where
  running : ∀ first second, store.status first = .running → store.status second = .running →
    first = second
  normal : ∀ id, id ≠ Store.main → store.access id = .executing → store.status id ≠ .running →
    store.status id = .normal

/-- The status of every coroutine, told from those who wait: who has been taken is running until it
waits to be woken. -/
structure Machine.Waits (machine : Machine W) : Prop where
  main : machine.store.status Store.main = .main
  executing : ∀ id, machine.store.access id = .executing ↔ id ∈ chain machine.pending
  running : ∀ id, machine.store.status id = .running ↔
    id ≠ Store.main ∧ id ∈ chain machine.pending ∧ .wake id ∉ machine.pending
  normal : ∀ id, machine.store.status id = .normal ↔ id ≠ Store.main ∧ .wake id ∈ machine.pending
  resting : ∀ id, id ≠ Store.main → id ∉ chain machine.pending →
    machine.store.status id = .notStarted ∨ machine.store.status id = .suspended ∨
      machine.store.status id = .dead

section

variable {machine : Machine W} {allowances : Allowances}

/-- Whoever has been taken and does not wait to be woken is running. Its status became Running when
it was entered, and only a resume by an instruction or a context makes it Normal. -/
theorem Machine.Sound.unwoken_running (sound : machine.Sound allowances) (other : id ≠ Store.main)
    (taken : id ∈ chain machine.pending) (unwoken : .wake id ∉ machine.pending) :
    machine.store.status id = .running := by
  have marked := (sound.mem_chain id).mp taken
  have status : CoroutineVM.Agrees (machine.store.status id) (marks id machine.pending) :=
    (sound.coroutines id).handled.status other
  cases same : marks id machine.pending with
  | nil => exact absurd same marked
  | cons mark rest =>
    rw [same] at status
    cases mark with
    | wake =>
      have member : Mark.wake ∈ marks id machine.pending := same ▸ List.mem_cons_self
      obtain ⟨waiting, waits, isWake⟩ := List.mem_filterMap.mp member
      obtain rfl : waiting = .wake id := Pending.of_mark isWake
      exact absurd waits unwoken
    | call valueHeight frameHeight mayYield => exact status
    | resume before => exact status
    | borrow => exact status

/-- The statuses of a sound machine are told by those who wait, whatever functions of the host have
done: marks agree with statuses in every run. -/
theorem Machine.Sound.waits (sound : machine.Sound allowances) : machine.Waits := by
  have main : machine.store.status Store.main = .main :=
    (sound.coroutines Store.main).handled.main rfl
  have apart : ∀ {id status}, machine.store.status id = status → status ≠ .main →
      id ≠ Store.main := by
    rintro id status stands different rfl
    exact different (stands.symm.trans main)
  have taken : ∀ {id status}, machine.store.status id = status →
      status = .running ∨ status = .normal →
      id ≠ Store.main ∧ id ∈ chain machine.pending := by
    intro id status stands active
    have other : id ≠ Store.main := by
      refine apart stands ?_
      rintro rfl
      simp at active
    refine ⟨other, Classical.byContradiction fun outside => ?_⟩
    have resting := sound.outside_rests other outside
    rw [stands] at resting
    obtain rfl | rfl := active <;> simp at resting
  constructor
  · exact main
  · exact fun id => (sound.coroutines id).handled.access.trans (sound.mem_chain id).symm
  · intro id
    constructor
    · intro stands
      obtain ⟨other, member⟩ := taken stands (.inl rfl)
      exact ⟨other, member,
        fun waits => by cases stands.symm.trans (sound.woken_normal other waits)⟩
    · rintro ⟨other, member, unwoken⟩
      exact sound.unwoken_running other member unwoken
  · intro id
    constructor
    · intro stands
      obtain ⟨other, member⟩ := taken stands (.inr rfl)
      refine ⟨other, Classical.byContradiction fun unwoken => ?_⟩
      cases stands.symm.trans (sound.unwoken_running other member unwoken)
    · exact fun ⟨other, waits⟩ => sound.woken_normal other waits
  · exact fun id other outside => sound.outside_rests other outside

/-- The law is kept exactly while all but one of those who have been taken wait to be woken. This is
the exact condition, of which the parts below say when it holds. -/
theorem Machine.Waits.oneRuns_iff (waits : machine.Waits) :
    machine.store.OneRuns ↔ ∀ first ∈ chain machine.pending, ∀ second ∈ chain machine.pending,
      first ≠ Store.main → second ≠ Store.main → .wake first ∉ machine.pending →
        .wake second ∉ machine.pending → first = second := by
  constructor
  · intro law first isFirst second isSecond firstOther secondOther firstRuns secondRuns
    apply law.running
    · exact (waits.running first).mpr ⟨firstOther, isFirst, firstRuns⟩
    · exact (waits.running second).mpr ⟨secondOther, isSecond, secondRuns⟩
  · intro alone
    constructor
    · intro first second firstRuns secondRuns
      obtain ⟨firstOther, isFirst, firstUnwoken⟩ := (waits.running first).mp firstRuns
      obtain ⟨secondOther, isSecond, secondUnwoken⟩ := (waits.running second).mp secondRuns
      exact alone first isFirst second isSecond firstOther secondOther firstUnwoken secondUnwoken
    · intro id other executing resting
      have taken := (waits.executing id).mp executing
      refine (waits.normal id).mpr ⟨other, Classical.byContradiction fun unwoken => ?_⟩
      exact resting ((waits.running id).mpr ⟨other, taken, unwoken⟩)

/-- Where everyone has been entered from the next one, only the innermost one runs, since all others
wait to be woken. -/
theorem Machine.Sound.oneRuns (sound : machine.Sound allowances) (linked : Linked machine.pending)
    (works : machine.focus.on? = some id) : machine.store.OneRuns := by
  obtain ⟨_, _, ranks⟩ := sound.ranks_working linked works
  constructor
  · intro first second firstRuns secondRuns
    have firstHead := ((ranks.running first).mp firstRuns).2
    have secondHead := ((ranks.running second).mp secondRuns).2
    exact Option.some.inj (firstHead.symm.trans secondHead)
  · intro id other executing resting
    have marked := (sound.mem_chain id).mp ((ranks.executing id).mp executing)
    have active := ((sound.coroutines id).handled.status other).active marked
    exact active.resolve_left resting

end

/-! ### What a run must not do -/

/-- A resume through a handle that is let in makes its target run and leaves everyone else as it is:
a handle does not know who has used it. -/
theorem statuses_resumeHandle {store : Store} {target : CoroutineId} {guard : ThreadGuard}
    (admits : store.Admits target guard) (arguments : List Value) (world : W)
    (outer : List Pending) :
    (Machine.enter (store.beginResume target arguments) world outer).store.status target =
      .running ∧
      ∀ other, other ≠ target →
        (Machine.enter (store.beginResume target arguments) world outer).store.status other =
          store.status other := by
  rw [enter_beginResume admits rfl]
  constructor
  · exact congrArg Coroutine.status
      (Store.coroutine_modifyCoroutine (has_of_resumable admits.resumable) _)
  · exact fun other different =>
      congrArg Coroutine.status (Store.coroutine_modifyCoroutine_other different _)

/-- A coroutine whose function of the host resumes another one through a handle is running, and so
is the other one from then on. -/
theorem Machine.Sound.both_run {machine : Machine W} {allowances : Allowances}
    (sound : machine.Sound allowances) {event : HostEvent} (stands : machine.focus = .host id event)
    (other : id ≠ Store.main) {target : CoroutineId} {arguments : List Value}
    (wants : machine.request? host = some (.resumeHandle target arguments)) {guard : ThreadGuard}
    (admits : machine.store.Admits target guard) :
    id ≠ target ∧ (machine.step host).store.status id = .running ∧
      (machine.step host).store.status target = .running := by
  obtain ⟨store, world, focus, pending⟩ := machine
  obtain rfl : focus = .host id event := stands
  obtain ⟨_, running, executing⟩ := sound.running (driven_of_function sound.orderly.suits)
  -- Whoever runs is in use, and whoever is let in is free.
  have different : id ≠ target := by
    rintro rfl
    cases executing.symm.trans admits.free
  have asks : (host.respond id event store world).2 = .resumeHandle target arguments :=
    Option.some.inj wants
  rw [Machine.step]
  generalize host.respond id event store world = answer at asks
  obtain ⟨later, request⟩ := answer
  obtain rfl : request = .resumeHandle target arguments := asks
  obtain ⟨starts, others⟩ :=
    statuses_resumeHandle admits arguments later (.hostResume id :: pending)
  exact ⟨different, (others id different).trans (running other), starts⟩

/-- What can be told about the running coroutines wherever a run leads. -/
structure Machine.RunsApart (host : Host W) (trace : List (Stage W)) (machine : Machine W) :
    Prop where
  waits : machine.Waits
  oneRuns_iff : machine.store.OneRuns ↔
    ∀ first ∈ chain machine.pending, ∀ second ∈ chain machine.pending,
      first ≠ Store.main → second ≠ Store.main → .wake first ∉ machine.pending →
        .wake second ∉ machine.pending → first = second
  /-- One coroutine runs at a time as long as no function of the host uses a handle in a
  coroutine. -/
  contained : (∀ stage ∈ trace, ¬ stage.before.Bypasses host) →
    ∀ id, machine.focus.on? = some id → machine.store.OneRuns
  /-- Every resume through a handle that a function of the host makes in a coroutine breaks the
  law. -/
  bypassed : ∀ id event target arguments guard, machine.focus = .host id event → id ≠ Store.main →
    machine.request? host = some (.resumeHandle target arguments) →
      machine.store.Admits target guard → ¬ (machine.step host).store.OneRuns

/-- Coroutines run one at a time, unless a function of the host that runs in one of them resumes or
calls through a handle. The exact condition holds in every run; the other parts say when it is kept
and which resumes break it. -/
theorem coroutines_run_apart {chunk : Chunk} {settings : Settings} {thread : ThreadId} {world : W}
    {trace : List (Stage W)} {machine : Machine W}
    (traces : Machine.Traces host (.new (.initial chunk settings thread) world) trace machine) :
    machine.RunsApart host trace := by
  have sound := (reachable_sound (guardsAllowed host _) ⟨_, traces.leads⟩).1
  have waits := sound.waits
  constructor
  · exact waits
  · exact waits.oneRuns_iff
  · exact fun contained id works => sound.oneRuns (linked_of_contained traces contained) works
  · intro id event target arguments guard stands other wants admits law
    obtain ⟨different, runs, targetRuns⟩ := sound.both_run stands other wants admits
    exact different (law.running id target runs targetRuns)

/-! ### A resume through a handle -/

/-- A host whose function resumes the second coroutine through its handle when it runs in the first
one, and otherwise returns nil. -/
def Host.bypassing : Host Unit where
  respond := fun id event _ world =>
    match id, event with
    | 1, .invoked _ _ => (world, .resumeHandle 2 [])
    | _, _ => (world, .finish (.ok .nil))
  executionEnded := fun _ _ _ world => (world, none)

/-- A script with a function of the host and with two coroutines that call it. -/
def pairEdits : List Operation := [.create .mainBody, .create .mainBody, .edit callbackEdit]

/-- The script once the function of the host is known to it and both coroutines have been made. -/
def pairMachine : Machine Unit :=
  let one := Machine.enter ((Operation.create .mainBody).begin callbackMachine.store) () []
  Machine.enter ((Operation.create .mainBody).begin one.store) () []

/-- So many steps after the first coroutine has been resumed. -/
def bypassedMachine (steps : Nat) : Machine Unit :=
  .run .bypassing steps (.enter ((Operation.resume 1 []).begin pairMachine.store) () [])

/-- The script with two coroutines is one that a run leads to. -/
theorem reachable_bypassedMachine (steps : Nat) :
    Machine.Reachable Host.bypassing (.sample callbackChunk) (.resume 1 [] :: pairEdits)
      (bypassedMachine steps) := by
  have known : Machine.Leads Host.bypassing (.new (.sample callbackChunk) ()) [.edit callbackEdit]
      callbackMachine := .operates (.edit callbackEdit) () .stays rfl
  have made :
      Machine.Leads Host.bypassing (.new (.sample callbackChunk) ()) pairEdits pairMachine :=
    .operates (.create .mainBody) () (.operates (.create .mainBody) () known rfl) rfl
  exact ⟨(), (made.operates (.resume 1 []) () rfl).run steps⟩

/-- One coroutine runs within the main body that has resumed it, and two run as soon as a function
of the host has used a handle. -/
theorem nested_and_bypassed :
    nestedMachine.store.OneRuns ∧ ¬ ((bypassedMachine 2).step .bypassing).store.OneRuns := by
  constructor
  · obtain ⟨world, leads⟩ := reachable_nestedMachine
    obtain ⟨trace, traces, _⟩ := Machine.Traces.exists_of_leads leads
    have works : nestedMachine.focus.on? = some 1 := by
      decide +kernel
    exact (coroutines_run_apart traces).contained (fun _ _ => silent_contained _) 1 works
  · obtain ⟨world, leads⟩ := reachable_bypassedMachine 2
    obtain ⟨trace, traces, _⟩ := Machine.Traces.exists_of_leads leads
    have begins : (bypassedMachine 2).focus.begins? = some 1 := by
      decide +kernel
    obtain ⟨function, arguments, stands⟩ := host_of_begins begins
    have wants : (bypassedMachine 2).request? Host.bypassing = some (.resumeHandle 2 []) := by
      simp only [Machine.request?, stands, Host.bypassing]
    have resumable : ((bypassedMachine 2).store.status 2).isResumable = true := by
      decide +kernel
    have free : (bypassedMachine 2).store.access 2 = .free := by
      decide +kernel
    have guard : ((bypassedMachine 2).store.processor 2).guard = .free := by
      decide +kernel
    have admitted : (bypassedMachine 2).store.passGuard 2 =
        .ok ⟨some (bypassedMachine 2).store.thread, 1⟩ := by
      rw [Store.passGuard, guard]
      rfl
    exact (coroutines_run_apart traces).bypassed 1 _ 2 [] _ stands (by decide) wants
      ⟨resumable, free, admitted⟩

/-- The function of the host which the second coroutine calls finds both of them running. -/
theorem bypassed_callback_finds_two :
    Machine.Reachable Host.bypassing (.sample callbackChunk) (.resume 1 [] :: pairEdits)
        (bypassedMachine 5) ∧
      (bypassedMachine 5).focus.begins? = some 2 ∧ ¬ (bypassedMachine 5).store.OneRuns := by
  refine ⟨reachable_bypassedMachine 5, by decide +kernel, fun law => ?_⟩
  have first : (bypassedMachine 5).store.status 1 = .running := by
    decide +kernel
  have second : (bypassedMachine 5).store.status 2 = .running := by
    decide +kernel
  cases law.running 1 2 first second

end CoroutineVM
