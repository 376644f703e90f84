import CoroutineVM.Proofs.Accounts.Steps
import CoroutineVM.Proofs.Machine.Calls

/-!
# Every entry is accounted for once

With counting on and a debugger that is attached wherever an entry ends, the machine is in agreement
with the books at every stage of a run, so in particular whenever the host is back in control and
whenever one of its functions begins. This is in spite of entries that nest on one processor and on
several, of errors on every way out, and of resets anywhere.
-/

namespace CoroutineVM

variable {W : Type} {host : Host W} {told : W → List CoroutineId} {recorder : DebuggerId}

/-- Nobody but the debugger writes to its notes in this run, neither the host between two operations
nor a function of the host, and no function of the host operates a guard. -/
def Untouched (host : Host W) (told : W → List CoroutineId) : List (Stage W) → Machine W → Prop
  | [], _ => True
  | .begins before _ :: earlier, machine =>
    told machine.world = told before.world ∧ Untouched host told earlier before
  | .steps before :: earlier, _ =>
    before.Unmeddled host told ∧ Untouched host told earlier before

/-- The debugger is attached wherever an entry ends. -/
def Attached (host : Host W) (recorder : DebuggerId) (trace : List (Stage W)) : Prop :=
  ∀ stage ∈ trace, stage.happening host = .finishes → stage.before.store.debugger = some recorder

namespace Machine

/-- What the host can see of counters and debugger is what the books of the run say. -/
structure Accounted (host : Host W) (told : W → List CoroutineId) (older : List CoroutineId)
    (trace : List (Stage W)) (machine : Machine W) : Prop where
  /-- Each counter shows how many entries of its kind have ended since the last reset. -/
  counts : ∀ counter, machine.store.counters.count counter = (ledger host trace).count counter
  /-- The debugger has been told of each outermost entry that has ended, in this order, and of
  nothing else. -/
  signals : told machine.world = (ledger host trace).signals ++ older
  /-- Those who were let in have ended once, or are under way. -/
  admitted : (trace.filterMap fun stage => (stage.happening host).admitted?).Perm
    ((ledger host trace).underway ++ (ledger host trace).finished)
  /-- Somebody waits to close each of those who are under way. -/
  underway : machine.pending.filterMap Pending.closes? = (ledger host trace).underway.map Entry.on
  /-- Between operations nothing is under way. -/
  rests : machine.atRest = true → (ledger host trace).underway = []

/-- Who waits to close an entry is who has the timer of one, and they are in the same order. -/
theorem closes_of_timers (pending : List Pending) :
    pending.filterMap Pending.closes? = (timers pending).map Prod.snd := by
  induction pending with
  | nil => rfl
  | cons waiting rest inductionHypothesis =>
    rw [timers, List.filterMap_cons, List.filterMap_cons]
    cases waiting <;> simp only [Pending.closes?, Pending.timer?, List.map_cons] <;>
      rw [inductionHypothesis, timers]

/-- A machine that is in agreement with the books is accounted for: its counters and its signals are
those of the books, and the entries which are open there are those that wait to be closed. At rest
nobody waits, so that none is open. -/
theorem Balanced.accounted {older : List CoroutineId} {trace : List (Stage W)} {machine : Machine W}
    (balanced : Balanced told older (ledger host trace) machine) :
    machine.Accounted host told older trace := by
  have underway :
      machine.pending.filterMap Pending.closes? = (ledger host trace).underway.map Entry.on := by
    rw [closes_of_timers, balanced.timed, List.map_map]
    rfl
  refine ⟨balanced.counts, balanced.signals, ledger_perm host trace, underway, fun rests => ?_⟩
  obtain ⟨_, _, nobody⟩ := atRest_iff.mp rests
  rw [nobody] at underway
  exact List.map_eq_nil_iff.mp underway.symm

/-- A new machine is in agreement with blank books, as it counts from nothing and nobody waits on
it. -/
theorem balanced_new {settings : Settings} (counting : settings.counting = true) (chunk : Chunk)
    (thread : ThreadId) (world : W) :
    Balanced told (told world) .blank (.new (.initial chunk settings thread) world) := by
  constructor
  case counting => exact counting
  case counts =>
    intro counter
    cases counter <;> rfl
  case signals => rfl
  case timed => rfl
  case levels => trivial

/-- At every stage of a run the machine is in agreement with the books. The induction is on the run:
each stage does what the books note of it, and what happens keeps the agreement. -/
theorem Traces.balanced {settings : Settings} (counting : settings.counting = true)
    (records : host.Records told recorder) {chunk : Chunk} {thread : ThreadId} {world : W}
    {trace : List (Stage W)} {machine : Machine W}
    (traces : Traces host (.new (.initial chunk settings thread) world) trace machine)
    (attached : Attached host recorder trace) (untouched : Untouched host told trace machine) :
    Balanced told (told world) (ledger host trace) machine := by
  -- Soundness is needed for one thing alone: that whoever is entered or left is there.
  induction traces with
  | stays => exact balanced_new counting chunk thread world
  | begins operation world traces rests inductionHypothesis =>
    obtain ⟨notes, earlier⟩ := untouched
    have balanced :=
      inductionHypothesis (fun stage member => attached stage (.tail _ member)) earlier
    have orderly := (reachable_sound (guardsAllowed host _) ⟨_, traces.leads⟩).1.orderly
    exact balanced.happens (happens_begin orderly rests operation notes)
  | steps traces inductionHypothesis =>
    obtain ⟨unmeddled, earlier⟩ := untouched
    have balanced :=
      inductionHypothesis (fun stage member => attached stage (.tail _ member)) earlier
    have orderly := (reachable_sound (guardsAllowed host _) ⟨_, traces.leads⟩).1.orderly
    exact balanced.happens (happens_step orderly records unmeddled (attached _ (.head _)))

end Machine

/-- Counters and debugger account for every call and every resume that is let in, once it has ended,
exactly once. What is asked of the host is asked at the stages of this run only: that the debugger
is attached where an entry ends, that its notes are its own, and that no function operates a
guard. -/
theorem entries_accounted_for {settings : Settings} (counting : settings.counting = true)
    (records : host.Records told recorder) {chunk : Chunk} {thread : ThreadId} {world : W}
    {trace : List (Stage W)} {machine : Machine W}
    (traces : Machine.Traces host (.new (.initial chunk settings thread) world) trace machine)
    (attached : Attached host recorder trace) (untouched : Untouched host told trace machine) :
    machine.Accounted host told (told world) trace :=
  (traces.balanced counting records attached untouched).accounted

/-! ### A callback that resets the counters -/

section

open Machine

/-- The stages of so many steps, newest first. -/
def Machine.stages (host : Host W) (machine : Machine W) : Nat → List (Stage W)
  | 0 => []
  | count + 1 => .steps ((step host)^[count] machine) :: machine.stages host count

/-- The stages that a machine goes through step after step continue the run that has led to it. -/
theorem traces_stages {start machine : Machine W} {trace : List (Stage W)}
    (traces : Traces host start trace machine) (count : Nat) :
    Traces host start (machine.stages host count ++ trace) ((step host)^[count] machine) := by
  induction count with
  | zero => exact traces
  | succ count inductionHypothesis =>
    rw [Function.iterate_succ_apply']
    exact inductionHypothesis.steps

/-- Steps of a host whose functions never meddle leave the notes to the debugger. -/
theorem untouched_stages {machine : Machine W} {trace : List (Stage W)}
    (unmeddled : ∀ before : Machine W, before.Unmeddled host told)
    (untouched : Untouched host told trace machine) (count : Nat) :
    Untouched host told (machine.stages host count ++ trace) ((step host)^[count] machine) := by
  induction count with
  | zero => exact untouched
  | succ count inductionHypothesis => exact ⟨unmeddled _, inductionHypothesis⟩

/-- A host whose functions call a function that fails and reset the counters then. Its debugger
notes down of whom it is told. -/
def Host.resetting : Host (List CoroutineId) where
  respond := fun _ event _ notes =>
    match event with
    | .invoked _ _ => (notes, .call (.closure ⟨1, ⟨0, []⟩⟩) [])
    | .called _ => (notes, .resetCounters)
    | _ => (notes, .finish (.ok .nil))
  executionEnded := fun debugger id _ notes => (id :: notes, some debugger)

/-- The debugger of this host notes every signal down. -/
theorem resetting_records (recorder : DebuggerId) : Host.resetting.Records id recorder :=
  fun _ _ _ => rfl

/-- The functions of this host only ask for resets, so that they leave guards and notes alone. -/
theorem resetting_unmeddled (before : Machine (List CoroutineId)) :
    before.Unmeddled Host.resetting id := by
  obtain ⟨store, world, focus, pending⟩ := before
  constructor
  case spares =>
    intro request wants
    cases focus with
    | host on event =>
      obtain rfl := Option.some.inj wants
      cases event <;> rfl
    | code on pointer => cases wants
    | settled outcome => cases wants
  case notes =>
    rintro on event rfl
    cases event <;> rfl

/-- The debugger is attached, the function of the host is made known, and the main body is
called. -/
def resettingStart : Machine (List CoroutineId) := .new (.sample callbackChunk) []

def watchedMachine : Machine (List CoroutineId) :=
  .enter ((Operation.edit (.attach (some 0))).begin resettingStart.store) [] []

def knownMachine : Machine (List CoroutineId) :=
  .enter ((Operation.edit callbackEdit).begin watchedMachine.store) [] []

def calledMachine : Machine (List CoroutineId) :=
  .enter ((Operation.call .mainBody []).begin knownMachine.store) [] []

def operatingTrace : List (Stage (List CoroutineId)) :=
  [.begins knownMachine (.call .mainBody []), .begins watchedMachine (.edit callbackEdit),
    .begins resettingStart (.edit (.attach (some 0)))]

def resettingTrace : List (Stage (List CoroutineId)) :=
  calledMachine.stages .resetting 13 ++ operatingTrace

/-- The call from within is no longer counted, and the debugger is told of the outer one alone. The
reset comes while the outer call is under way, which is counted when it ends. -/
theorem reset_within_callback :
    ((step .resetting)^[13] calledMachine).Accounted .resetting id [] resettingTrace ∧
      ((step .resetting)^[13] calledMachine).atRest = true ∧
      ((step .resetting)^[13] calledMachine).store.counters.count .execution = 1 ∧
      ((step .resetting)^[13] calledMachine).world = [Store.main] := by
  have begun : Traces Host.resetting resettingStart operatingTrace calledMachine :=
    ((Traces.stays.begins (.edit (.attach (some 0))) [] rfl).begins (.edit callbackEdit)
      [] rfl).begins (.call .mainBody []) [] rfl
  have attached : Attached .resetting 0 resettingTrace := by
    unfold Attached
    decide +kernel
  have untouched : Untouched .resetting id operatingTrace calledMachine := ⟨rfl, rfl, rfl, trivial⟩
  constructor
  · exact entries_accounted_for rfl (resetting_records 0) (traces_stages begun 13) attached
      (untouched_stages resetting_unmeddled untouched 13)
  · decide +kernel

end

end CoroutineVM
