import CoroutineVM.Proofs.Machine.Entries
import CoroutineVM.Proofs.Machine.Isolation
import CoroutineVM.Proofs.Machine.Runs
import CoroutineVM.Proofs.Machine.Steps
import CoroutineVM.Proofs.Twins.Instructions

/-!
# A call and a first resume

A coroutine that never yields runs as a call does. Its processor and the script's own one are twins
from the entry on: each step does the same on both, as long as the host answers the same and does
not go back into script code. So the two runs come to the same outcome, or neither comes to one.
What differs is how they are closed, and nobody sees that in tables and cells.
-/

namespace CoroutineVM

open Processor

variable {W : Type}

/-! ### Hosts that stay outside -/

/-- A request that does not lead into script code and leaves the guards alone. -/
def Request.StaysOutside (creating : Prop) : Request → Prop
  | .call _ _ | .resume _ _ | .callScript _ _ | .resumeHandle _ _ | .enterGuard _ => False
  | .create _ => creating
  | .edit change => change.touchesGuard = false
  | .finish _ | .setGlobal _ _ | .attach _ | .resetCounters => True

/-- The functions of the host depend on what they are told and on what stores share, and they do not
go back into script code. Whether they may create coroutines is left open. -/
structure Host.Detached (creating : Prop) (host : Host W) : Prop where
  impartial : ∀ {first second : Store}, Store.Shares creating first second → ∀ on other event world,
    host.respond other event second world = host.respond on event first world
  outside : ∀ on event store world, (host.respond on event store world).2.StaysOutside creating

namespace Store

variable {creating : Prop} {id twin : CoroutineId} {first second : Store}

/-- Handles of coroutines may change on either side. -/
theorem Twins.setAccess (twins : Twins creating id twin first second) (on : CoroutineId)
    (access : Access) : Twins creating id twin (first.setAccess on access) second := by
  obtain ⟨plain, shares, known, twinKnown, sameStacks⟩ := twins
  refine ⟨plain, { shares with coroutines := ?_ }, (has_modifyCoroutine ..).mpr known,
    twinKnown, ?_⟩
  · intro creates
    simpa [Store.setAccess, modifyCoroutine] using shares.coroutines creates
  · have kept (coroutine : Coroutine) :
        ({ coroutine with access := access } : Coroutine).processor = coroutine.processor := rfl
    have same : (first.setAccess on access).processor id = first.processor id :=
      read_modifyCoroutine Coroutine.processor kept first on id
    rw [same]
    exact sameStacks

/-- Who holds the handle of a coroutine is not shared, so that a host may take one in the one store
only. -/
theorem Twins.hold (twins : Twins creating id twin first second) (on : CoroutineId) :
    Twins creating id twin (first.hold on) second := by
  rw [Store.hold]
  split
  · exact twins
  · exact twins.setAccess on .held

/-- It may also give it back there only. -/
theorem Twins.letGo (twins : Twins creating id twin first second) (on : CoroutineId) :
    Twins creating id twin (first.letGo on) second := by
  rw [Store.letGo]
  split
  · exact twins.setAccess on .free
  · exact twins

/-- What the host changes, it changes in both stores; what it changes about handles is not shared
and does no harm. -/
theorem Twins.edit (twins : Twins creating id twin first second) {change : Edit}
    (spares : change.touchesGuard = false) :
    Twins creating id twin (first.edit change) (second.edit change) := by
  have shares := twins.shares
  cases change with
  | createTable =>
    exact { twins with shares := { shares with
      tables := congrArg (fun tables : Tables => tables.create.2) shares.tables } }
  | setEntry table name value =>
    exact { twins with shares := { shares with
      tables := congrArg (·.set table name value) shares.tables } }
  | createCell value =>
    exact { twins with shares := { shares with cells := congrArg (·.push value) shares.cells } }
  | writeCell cell value =>
    exact { twins with shares := { shares with
      cells := congrArg (·.setIfInBounds cell value) shares.cells } }
  | createScope =>
    exact { twins with shares := { shares with nextScope := congrArg (· + 1) shares.nextScope } }
  | attach debugger => exact { twins with shares := { shares with } }
  | resetCounters => exact { twins with shares := { shares with } }
  | hold on => exact ((twins.hold on).symm.hold on).symm
  | letGo on => exact ((twins.letGo on).symm.letGo on).symm
  | enterGuard on thread => cases spares
  | leaveGuard on => cases spares

/-- A new coroutine gets the same name in both stores. -/
theorem matches_spawn (creates : creating) (function : Value) :
    Attempt.Matches (Twins creating id twin) (spawn id function) (spawn twin function) := by
  unfold spawn
  split
  · refine Attempt.follows_bind (Attempt.follows_check fun twins => by
      simp only [twins.shares.chunk]) fun _ => ?_
    rintro first second ⟨plain, shares, known, twinKnown, sameStacks⟩
    have sizes := shares.coroutines creates
    refine .inr
      ⟨congrArg Except.ok sizes, plain, { shares with coroutines := fun _ => ?_ }, ?_, ?_, ?_⟩
    · simp [sizes]
    · exact Nat.lt_trans known (by simp)
    · exact Nat.lt_trans twinKnown (by simp)
    · rw [processor, processor, coroutine_push_other (Nat.ne_of_lt known),
        coroutine_push_other (Nat.ne_of_lt twinKnown)]
      exact sameStacks
  · exact Attempt.follows_fail _

end Store

/-! ### Machines side by side -/

/-- An outcome that is no yield. -/
def Outcome.IsWhole : Outcome → Prop
  | .ok (.yielded _ _) => False
  | .ok (.returned _) | .error _ => True

/-- Two machines stand at the same place, each on its own twin. Nobody waits but, in a function of
the host, the code that has called it. -/
inductive SamePlace (id twin : CoroutineId) :
    Focus → List Pending → Focus → List Pending → Prop where
  | code (pointer : Nat) : SamePlace id twin (.code id pointer) [] (.code twin pointer) []
  | host (event : HostEvent) (resumeAt : Nat) :
      SamePlace id twin (.host id event) [.hostFunction id resumeAt] (.host twin event)
        [.hostFunction twin resumeAt]
  | answered (outcome : Outcome) (resumeAt : Nat) :
      SamePlace id twin (.settled outcome) [.hostFunction id resumeAt] (.settled outcome)
        [.hostFunction twin resumeAt]
  | ended {outcome : Outcome} (whole : outcome.IsWhole) :
      SamePlace id twin (.settled outcome) [] (.settled outcome) []

/-- Either of two machines at the same place can be taken as the first. -/
theorem SamePlace.symm {id twin : CoroutineId} {focus other : Focus}
    {pending waiting : List Pending} (same : SamePlace id twin focus pending other waiting) :
    SamePlace twin id other waiting focus pending := by
  cases same with
  | code pointer => exact .code pointer
  | host event resumeAt => exact .host event resumeAt
  | answered outcome resumeAt => exact .answered outcome resumeAt
  | ended whole => exact .ended whole

namespace Machine

variable {creating : Prop} {id twin : CoroutineId} {host : Host W} {first second : Machine W}

/-- Two machines at the same place, in stores with twins. -/
structure Alongside (creating : Prop) (id twin : CoroutineId) (first second : Machine W) :
    Prop where
  stores : Store.Twins creating id twin first.store second.store
  world : second.world = first.world
  place : SamePlace id twin first.focus first.pending second.focus second.pending

/-- So can either of two that are side by side. -/
theorem Alongside.symm (alongside : Alongside creating id twin first second) :
    Alongside creating twin id second first :=
  ⟨alongside.stores.symm, alongside.world.symm, alongside.place.symm⟩

/-- They are at rest together. -/
theorem Alongside.atRest (alongside : Alongside creating id twin first second) :
    second.atRest = first.atRest := by
  obtain ⟨store, world, focus, pending⟩ := first
  obtain ⟨other, otherWorld, otherFocus, waiting⟩ := second
  obtain ⟨_, _, place⟩ := alongside
  cases place <;> rfl

/-- An instruction does the same on both and leads to the same place. Since it is not about
coroutines it leads to one where they can be compared. -/
theorem alongside_stepCode {store other : Store} {world : W}
    (stores : Store.Twins creating id twin store other) (pointer : Nat) :
    Alongside creating id twin (stepCode id pointer store world [])
      (stepCode twin pointer other world []) := by
  rw [stepCode, stepCode, stores.shares.chunk]
  cases found : store.chunk.instruction? pointer with
  | none => exact ⟨stores, rfl, .ended trivial⟩
  | some instruction =>
    have mine : instruction.concernsCoroutines = false :=
      stores.plain _ (Array.mem_of_getElem? found)
    obtain ⟨result, after, left, run, follow, twins⟩ :=
      (Store.matches_execute mine (pointer + 1)).runs stores
    have ends : (Store.execute id instruction (pointer + 1)).Ends store _ _ :=
      Store.execute_isPlain mine (pointer + 1) store
    rw [Attempt.Ends, run] at ends
    simp only [run, follow]
    cases result with
    | error error => exact ⟨twins, rfl, .ended trivial⟩
    | ok flow =>
      cases flow with
      | goto next => exact ⟨twins, rfl, .code next⟩
      | returned value => exact ⟨twins, rfl, .ended trivial⟩
      | callHost function arguments resumeAt => exact ⟨twins, rfl, .host _ resumeAt⟩
      | yielded value resumeAt => exact ends.elim
      | resume target arguments resumeAt => exact ends.elim

/-- A request that stays outside of script code is answered in the same way. Such are the end of the
function, changes by hand and, if the stores have the same coroutines, creations. -/
theorem alongside_stepRequest {store other : Store} {world : W} {request : Request}
    (stores : Store.Twins creating id twin store other) (outside : request.StaysOutside creating)
    (resumeAt : Nat) :
    Alongside creating id twin (stepRequest id request store world [.hostFunction id resumeAt])
      (stepRequest twin request other world [.hostFunction twin resumeAt]) := by
  have edited {change : Edit} (spares : change.touchesGuard = false) : Alongside creating id twin
      ⟨store.edit change, world, .host id .done, [.hostFunction id resumeAt]⟩
      ⟨other.edit change, world, .host twin .done, [.hostFunction twin resumeAt]⟩ :=
    ⟨stores.edit spares, rfl, .host _ resumeAt⟩
  cases request with
  | finish outcome => exact ⟨stores, rfl, .answered _ resumeAt⟩
  | create function =>
    obtain ⟨result, after, left, run, follow, twins⟩ :=
      (Store.matches_spawn outside function).runs stores
    simp only [stepRequest, run, follow]
    exact ⟨twins, rfl, .host _ resumeAt⟩
  | setGlobal name value => exact edited rfl
  | attach debugger => exact edited rfl
  | resetCounters => exact edited rfl
  | edit change => exact edited outside
  | call callee arguments => exact outside.elim
  | resume target arguments => exact outside.elim
  | callScript callee arguments => exact outside.elim
  | resumeHandle target arguments => exact outside.elim
  | enterGuard thread => exact outside.elim

/-- A result is pushed on both or fits on neither. -/
theorem alongside_pushResult {store other : Store} {world : W}
    (stores : Store.Twins creating id twin store other) (resumeAt : Nat) (value : Value) :
    Alongside creating id twin (pushResult id resumeAt value store world [])
      (pushResult twin resumeAt value other world []) := by
  obtain ⟨result, after, left, run, follow, twins⟩ :=
    (Store.matches_onProcessor (onStacks_push value)).runs stores
  simp only [pushResult, run, follow]
  cases result with
  | ok done => exact ⟨twins, rfl, .code resumeAt⟩
  | error error => exact ⟨twins, rfl, .ended trivial⟩

/-- A step of one machine is the same step of the other one. The cases are the places at which both
can stand. -/
theorem Alongside.step (alongside : Alongside creating id twin first second)
    (detached : host.Detached creating) :
    Alongside creating id twin (first.step host) (second.step host) := by
  obtain ⟨store, world, focus, pending⟩ := first
  obtain ⟨other, otherWorld, otherFocus, waiting⟩ := second
  obtain ⟨stores, sameWorld, place⟩ := alongside
  obtain rfl : otherWorld = world := sameWorld
  cases place with
  | code pointer => exact alongside_stepCode stores pointer
  | host event resumeAt =>
    have outside := detached.outside id event store otherWorld
    have same := detached.impartial stores.shares id twin event otherWorld
    simp only [Machine.step, same]
    exact alongside_stepRequest stores outside resumeAt
  | answered outcome resumeAt =>
    cases outcome with
    | ok exit => exact alongside_pushResult stores resumeAt exit.value
    | error error => exact ⟨stores, rfl, .ended trivial⟩
  | ended whole => exact ⟨stores, rfl, .ended whole⟩

/-- From this machine the run first goes back to those outside with this outcome, and leaves these
tables and cells. -/
def Leaves (host : Host W) (outer : List Pending) (machine : Machine W) (outcome : Outcome)
    (tables : Tables) (cells : Array Value) : Prop :=
  ∃ after later, Returns host outer machine after later outcome ∧ after.tables = tables ∧
    after.cells = cells

variable {outer fringe : List Pending} {outcome : Outcome} {tables : Tables} {cells : Array Value}

/-- Where one machine comes back to those outside, the other one comes back to those outside of
it. -/
theorem Alongside.returns {after : Store} {later : W}
    (alongside : Alongside creating id twin first second) (detached : host.Detached creating)
    (returns : Returns host outer (first.under outer) after later outcome) (fringe : List Pending) :
    outcome.IsWhole ∧ ∃ other, Returns host fringe (second.under fringe) other later outcome ∧
      Store.Twins creating id twin after other := by
  generalize same : first.under outer = whole at returns
  induction returns generalizing first second with
  | back store world outcome =>
    obtain ⟨firstStore, firstWorld, focus, pending⟩ := first
    obtain ⟨secondStore, secondWorld, otherFocus, waiting⟩ := second
    simp only [under, Machine.mk.injEq, List.append_left_eq_self] at same
    obtain ⟨rfl, rfl, rfl, rfl⟩ := same
    obtain ⟨stores, sameWorld, place⟩ := alongside
    obtain rfl : secondWorld = firstWorld := sameWorld
    cases place with
    | ended whole => exact ⟨whole, _, .back _ _ _, stores⟩
  | onward busy rest inductionHypothesis =>
    subst same
    have moving := busy_under.mpr busy
    have following : second.atRest = false := alongside.atRest.trans moving
    obtain ⟨whole, other, returns, twins⟩ :=
      inductionHypothesis (alongside.step detached) (step_under first moving).symm
    rw [← step_under second following] at returns
    exact ⟨whole, other, .onward (busy_under.mp following) returns, twins⟩

/-- Two machines side by side leave those outside with the same, whoever these are. -/
theorem Alongside.leaves (alongside : Alongside creating id twin first second)
    (detached : host.Detached creating) :
    Leaves host outer (first.under outer) outcome tables cells ↔
      Leaves host fringe (second.under fringe) outcome tables cells := by
  constructor
  · rintro ⟨after, later, returns, rfl, rfl⟩
    obtain ⟨_, other, returns, twins⟩ := alongside.returns detached returns fringe
    exact ⟨other, later, returns, twins.shares.tables, twins.shares.cells⟩
  · rintro ⟨after, later, returns, rfl, rfl⟩
    obtain ⟨_, other, returns, twins⟩ := alongside.symm.returns detached returns outer
    exact ⟨other, later, returns, twins.shares.tables, twins.shares.cells⟩

end Machine

/-! ### Handing an outcome on -/

/-- Whoever waits so hands on every outcome that is no yield, and nothing happens to tables and
cells. -/
def Pending.HandsOn (host : Host W) (waiting : Pending) : Prop :=
  ∀ (outcome : Outcome) (store : Store) (world : W) (outer : List Pending), outcome.IsWhole →
    ∃ after later, Machine.stepSettled host outcome waiting store world outer =
      ⟨after, later, .settled outcome, outer⟩ ∧ after.tables = store.tables ∧
        after.cells = store.cells

section

open Machine

variable {host : Host W}

/-- The end of an execution is no business of tables and cells. -/
theorem leaveGuard_shared (host : Host W) (id : CoroutineId) (store : Store) (world : W) :
    (leaveGuard host id store world).1.tables = store.tables ∧
      (leaveGuard host id store world).1.cells = store.cells := by
  rw [leaveGuard]
  obtain ⟨outermost, guard⟩ := (store.processor id).guard.leave
  dsimp only
  split <;> exact ⟨rfl, rfl⟩

/-- Stopping a watch is not seen in tables and cells. -/
theorem stopWatch_shared (stopwatch : Option Stopwatch) (store : Store) :
    (stopWatch stopwatch store).tables = store.tables ∧
      (stopWatch stopwatch store).cells = store.cells := by
  cases stopwatch <;> exact ⟨rfl, rfl⟩

/-- To close a call hands the outcome on, with tables and cells as they are. -/
theorem handsOn_closeCall (id : CoroutineId) (valueHeight frameHeight : Nat) (mayYield : Bool)
    (stopwatch : Option Stopwatch) :
    (Pending.closeCall id valueHeight frameHeight mayYield stopwatch).HandsOn host := by
  intro outcome store world outer whole
  let restored := store.modifyProcessor id (Processor.restore valueHeight frameHeight mayYield)
  have stopped := stopWatch_shared stopwatch restored
  have left := leaveGuard_shared host id (stopWatch stopwatch restored) world
  refine ⟨_, (leaveGuard host id (stopWatch stopwatch restored) world).2, ?_,
    left.1.trans stopped.1, left.2.trans stopped.2⟩
  match outcome, whole with
  | .error error, _ => rfl
  | .ok (.returned value), _ => rfl

/-- To close a resume is not seen in tables and cells, whether the coroutine is suspended or dead
then. -/
theorem closeResume_shared (host : Host W) (target : CoroutineId) (before : CoroutineStatus)
    (stopwatch : Option Stopwatch) (outcome : Outcome) (store : Store) (world : W) :
    (closeResume host target before stopwatch outcome store world).1.tables = store.tables ∧
      (closeResume host target before stopwatch outcome store world).1.cells = store.cells := by
  have stopped := stopWatch_shared stopwatch (store.modifyProcessor target (processorAfter outcome))
  have left := leaveGuard_shared host target
    (stopWatch stopwatch (store.modifyProcessor target (processorAfter outcome))) world
  rw [closeResume]
  generalize leaveGuard host target _ world = last at left ⊢
  exact ⟨left.1.trans stopped.1, left.2.trans stopped.2⟩

/-- It hands the outcome on. -/
theorem handsOn_closeResume (target : CoroutineId) (before : CoroutineStatus)
    (stopwatch : Option Stopwatch) :
    (Pending.closeResume target before stopwatch).HandsOn host := by
  intro outcome store world outer whole
  let closed := closeResume host target before stopwatch outcome store world
  exact ⟨closed.1, closed.2, rfl,
    closeResume_shared host target before stopwatch outcome store world⟩

/-- So does giving a borrowed coroutine back. -/
theorem handsOn_release (id : CoroutineId) : (Pending.release id).HandsOn host :=
  fun _ _ _ _ _ => ⟨_, _, rfl, rfl, rfl⟩

variable {isolated : Machine W} {outer : List Pending}

/-- What is left when an outcome has been handed on is what was left before, because the one who
hands it on changes neither tables nor cells. -/
theorem leaves_past {waiting : Pending} (handsOn : waiting.HandsOn host)
    (whole : ∀ after later outcome,
      Returns host (waiting :: outer) (isolated.under (waiting :: outer)) after later outcome →
        outcome.IsWhole) (outcome : Outcome) (tables : Tables) (cells : Array Value) :
    Leaves host outer (isolated.under (waiting :: outer)) outcome tables cells ↔
      Leaves host (waiting :: outer) (isolated.under (waiting :: outer)) outcome tables cells := by
  constructor
  · rintro ⟨after, later, returns, rfl, rfl⟩
    obtain ⟨store, world, inner, inside, closes⟩ := returns.through isolated rfl
    obtain ⟨last, lastWorld, hands, tables, cells⟩ :=
      handsOn inner store world outer (whole _ _ _ inside)
    rw [hands] at closes
    obtain ⟨rfl, rfl, rfl⟩ := closes.settled
    exact ⟨store, world, inside, tables.symm, cells.symm⟩
  · rintro ⟨store, world, inside, rfl, rfl⟩
    obtain ⟨last, lastWorld, hands, tables, cells⟩ :=
      handsOn outcome store world outer (whole _ _ _ inside)
    refine ⟨last, lastWorld, inside.rejoin isolated rfl ?_, tables, cells⟩
    rw [hands]
    exact .back last lastWorld outcome

/-- So it is when several hand the outcome on, one after the other. -/
theorem leaves_past_all {closers : List Pending}
    (handOn : ∀ waiting ∈ closers, waiting.HandsOn host) (whole : ∀ after later outcome,
      Returns host (closers ++ outer) (isolated.under (closers ++ outer)) after later outcome →
        outcome.IsWhole) (outcome : Outcome) (tables : Tables) (cells : Array Value) :
    Leaves host outer (isolated.under (closers ++ outer)) outcome tables cells ↔
      Leaves host (closers ++ outer) (isolated.under (closers ++ outer)) outcome tables cells := by
  induction closers generalizing isolated outcome tables cells with
  | nil => rfl
  | cons waiting rest inductionHypothesis =>
    obtain ⟨here, others⟩ := List.forall_mem_cons.mp handOn
    rw [List.cons_append] at whole ⊢
    have past := leaves_past here whole
    have regrouped : isolated.under (waiting :: (rest ++ outer)) =
        (isolated.under [waiting]).under (rest ++ outer) := by simp [under]
    rw [regrouped] at past ⊢
    refine (inductionHypothesis others ?_ outcome tables cells).trans (past outcome tables cells)
    intro after later outcome returns
    obtain ⟨_, _, inside, _, _⟩ :=
      (past outcome after.tables after.cells).mp ⟨after, later, returns, rfl, rfl⟩
    rw [← regrouped] at inside
    exact whole _ _ _ inside

/-- Entries that run alongside each other come to the same when their outcomes have been handed on,
and to no yield. -/
theorem Machine.Alongside.handedOn {creating : Prop} {id twin : CoroutineId}
    {first second : Machine W} (alongside : Alongside creating id twin first second)
    (detached : host.Detached creating) {callers resumers : List Pending}
    (callersHandOn : ∀ waiting ∈ callers, waiting.HandsOn host)
    (resumersHandOn : ∀ waiting ∈ resumers, waiting.HandsOn host) (outcome : Outcome)
    (tables : Tables) (cells : Array Value) :
    (Leaves host [] (first.under callers) outcome tables cells ↔
      Leaves host [] (second.under resumers) outcome tables cells) ∧
    (Leaves host [] (first.under callers) outcome tables cells → outcome.IsWhole) := by
  have callPast : Leaves host [] (first.under (callers ++ [])) outcome tables cells ↔ _ :=
    leaves_past_all callersHandOn
      (fun _ _ _ returns => (alongside.returns detached returns []).1) outcome tables cells
  have resumePast : Leaves host [] (second.under (resumers ++ [])) outcome tables cells ↔ _ :=
    leaves_past_all resumersHandOn
      (fun _ _ _ returns => (alongside.symm.returns detached returns []).1) outcome tables cells
  rw [List.append_nil] at callPast resumePast
  refine ⟨callPast.trans ((alongside.leaves detached).trans resumePast.symm), fun leaves => ?_⟩
  obtain ⟨after, later, inside, _, _⟩ := callPast.mp leaves
  exact (alongside.returns detached inside []).1

/-- A coroutine that has come to a value is dead, where the call that runs beside it has only
returned. -/
theorem Machine.Alongside.dead {creating : Prop} {id twin : CoroutineId} {first second : Machine W}
    (alongside : Alongside creating id twin first second) (detached : host.Detached creating)
    {before : CoroutineStatus} {stopwatch : Option Stopwatch} {after : Store} {later : W}
    {exit : Exit} (returns :
      Returns host [] (second.under [.closeResume twin before stopwatch]) after later (.ok exit)) :
    after.status twin = .dead := by
  obtain ⟨store, world, inner, inside, closes⟩ := returns.through second rfl
  obtain ⟨whole, _, _, twins⟩ := alongside.symm.returns detached inside []
  obtain ⟨left, _, rfl⟩ := Machine.Returns.settled closes
  replace left : after = (closeResume host twin before stopwatch (.ok exit) store world).1 := left
  obtain ⟨closed, _⟩ := coroutines_closeResume host twins.known before stopwatch (.ok exit) world
  rw [left, Store.status, Store.coroutine_congr closed, Store.coroutine_modifyCoroutine twins.known]
  cases exit with
  | returned value => rfl
  | yielded value resumeAt => exact whole.elim

/-- A machine never comes to rest exactly if it never leaves anything. -/
theorem diverges_iff_leaves {machine : Machine W} :
    machine.Diverges host ↔
      ∀ outcome tables cells, ¬ Leaves host [] machine outcome tables cells := by
  rw [diverges_iff]
  constructor
  · rintro never outcome tables cells ⟨after, later, returns, _, _⟩
    exact never after later outcome returns
  · intro never after later outcome returns
    exact never outcome after.tables after.cells ⟨after, later, returns, rfl, rfl⟩

end

/-! ### A script at rest and a fresh coroutine -/

namespace Store

/-- The script's own processor is at rest: its stacks are empty, nobody uses it, and its guard lets
in the thread of the script. -/
structure MainIdle (store : Store) : Prop where
  known : store.Has main
  free : store.access main = .free
  admitted : ∃ guard, store.passGuard main = .ok guard
  empty : SameStacks (.idle store.settings.valueCapacity store.settings.frameCapacity none)
    (store.processor main)

/-- A coroutine that has been created to begin with this closure and has not been resumed yet. -/
structure Fresh (store : Store) (target : CoroutineId) (closure : Closure) : Prop where
  known : store.Has target
  status : store.status target = .notStarted
  free : store.access target = .free
  admitted : ∃ guard, store.passGuard target = .ok guard
  empty : SameStacks (.idle store.settings.valueCapacity store.settings.frameCapacity none)
    (store.processor target)
  unsaved : (store.processor target).savedPointer = none
  entry : (store.processor target).entry = some closure

/-- In a new script nobody uses the script's own processor. -/
theorem mainIdle_initial (chunk : Chunk) (settings : Settings) (thread : ThreadId) :
    (initial chunk settings thread).MainIdle :=
  ⟨Nat.zero_lt_one, rfl, ⟨_, rfl⟩, rfl, rfl⟩

/-- What the host creates from outside is fresh, and everything else is as it was. So such a
coroutine may be compared with a call in the script from before. -/
theorem fresh_of_create {store after : Store} {closure : Closure} {target : CoroutineId}
    (creates : store.createCoroutine (.closure closure) = (.ok target, after)) :
    after.Fresh target closure ∧ Shares False store after := by
  change spawn main (.closure closure) store = _ at creates
  cases found : store.chunk.entryPoint closure with
  | error error => simp [spawn, bind, Attempt.andThen, Attempt.check, found] at creates
  | ok entryPoint =>
    simp only [spawn, bind, Attempt.andThen, Attempt.check, found, Prod.mk.injEq,
      Except.ok.injEq] at creates
    obtain ⟨rfl, rfl⟩ := creates
    let born : Coroutine := ⟨.notStarted, .free, some main,
      .idle store.settings.valueCapacity store.settings.frameCapacity (some closure)⟩
    have made :
        coroutine { store with coroutines := store.coroutines.push born } store.coroutines.size =
        born := by simp [coroutine]
    refine ⟨?_, ⟨rfl, rfl, rfl, rfl, rfl, False.elim⟩⟩
    exact {
      known := by simp [Has]
      status := congrArg Coroutine.status made
      free := congrArg Coroutine.access made
      admitted := ⟨⟨some store.thread, 1⟩,
        congrArg (fun made : Coroutine => made.processor.guard.enter store.thread) made⟩
      empty := ⟨congrArg (fun made : Coroutine => made.processor.values) made,
        congrArg (fun made : Coroutine => made.processor.frames) made⟩
      unsaved := congrArg (fun made : Coroutine => made.processor.savedPointer) made
      entry := congrArg (fun made : Coroutine => made.processor.entry) made }

end Store

section

open Machine

variable {creating : Prop} {host : Host W} {store twin : Store} {target : CoroutineId}
  {closure : Closure}

/-- A call of the script at rest that has been prepared is a machine with two who wait for it: one
closes the call, and one gives the processor back. -/
theorem enter_scriptCall (idle : store.MainIdle) {guard : ThreadGuard}
    (admitted : store.passGuard Store.main = .ok guard) {callee : Value} {arguments : List Value}
    {entered : Except ScriptError Nat} {called : Processor}
    (prepared : enterFromHost store.chunk (some callee) arguments
      { store.processor Store.main with guard := guard, mayYield := false } = (entered, called))
    (world : W) :
    ∃ valueHeight frameHeight mayYield stopwatch,
      Machine.enter (store.beginScriptCall callee arguments) world [] =
        ⟨(store.setAccess Store.main .executing).modifyCoroutine Store.main
          ({ · with processor := called }), world, Turn.focusAt Store.main entered,
          [.closeCall Store.main valueHeight frameHeight mayYield stopwatch,
            .release Store.main]⟩ := by
  have taken (coroutine : Coroutine) :
      ({ coroutine with access := .executing } : Coroutine).processor = coroutine.processor := rfl
  have same :
      (store.setAccess Store.main .executing).processor Store.main = store.processor Store.main :=
    Store.read_modifyCoroutine Coroutine.processor taken store Store.main Store.main
  rw [← same] at prepared
  have admits : (store.setAccess Store.main .executing).passGuard Store.main = .ok guard := by
    rw [Store.passGuard, same]
    exact admitted
  have still : (store.setAccess Store.main .executing).Has Store.main :=
    (Store.has_modifyCoroutine ..).mpr idle.known
  have enters := enter_beginCall still admits prepared world [.release Store.main]
  rw [Store.beginScriptCall, enter_borrowing idle.free]
  exact ⟨_, _, _, _, enters⟩

/-- The first resume of a coroutine that has been prepared as a call. -/
theorem enter_firstResume (fresh : store.Fresh target closure) {guard : ThreadGuard}
    (admitted : store.passGuard target = .ok guard) {arguments : List Value}
    {entered : Except ScriptError Nat} {resumed : Processor}
    (prepared : enterFromHost store.chunk (some (.closure closure)) arguments
      { store.processor target with guard := guard, entry := none } = (entered, resumed))
        (world : W) :
    ∃ stopwatch, Machine.enter (store.beginResume target arguments) world [] =
      ⟨store.modifyCoroutine target fun coroutine =>
        ⟨.running, .executing, coroutine.parent, resumed⟩,
        world, Turn.focusAt target entered, [.closeResume target .notStarted stopwatch]⟩ := by
  have first :
      enterFromResume store.chunk arguments { store.processor target with guard := guard } = _ :=
    enterFromResume_first fresh.unsaved fresh.entry
  have resumable : (store.status target).isResumable = true := by
    rw [fresh.status]
    rfl
  have enters := enter_beginResume ⟨resumable, fresh.free, admitted⟩ (first.trans prepared) world []
  rw [fresh.status] at enters
  exact ⟨_, enters⟩

/-- After both entries the two processors are twins. Both stacks are empty before, with the
capacities of the settings, and what is put there is the same. -/
theorem entries_alongside (plain : store.chunk.IsPlain) (shares : Store.Shares creating store twin)
    (idle : store.MainIdle) (fresh : twin.Fresh target closure) (arguments : List Value)
    (world : W) :
    ∃ (first second : Machine W) (valueHeight frameHeight : Nat) (mayYield : Bool)
      (calling resuming : Option Stopwatch),
      Machine.enter (store.beginScriptCall (.closure closure) arguments) world [] =
        first.under [.closeCall Store.main valueHeight frameHeight mayYield calling,
          .release Store.main] ∧
      Machine.enter (twin.beginResume target arguments) world [] =
        second.under [.closeResume target .notStarted resuming] ∧
      Alongside creating Store.main target first second := by
  obtain ⟨guard, admitted⟩ := idle.admitted
  obtain ⟨freshGuard, letIn⟩ := fresh.admitted
  have twins : SameStacks { store.processor Store.main with guard := guard, mayYield := false }
      { twin.processor target with guard := freshGuard, entry := none } :=
    ⟨by rw [fresh.empty.values, idle.empty.values, shares.settings],
      by rw [fresh.empty.frames, idle.empty.frames, shares.settings]⟩
  obtain ⟨entered, called, resumed, calls, resumes, sameStacks⟩ :=
    (onStacks_enterFromHost store.chunk (some (.closure closure)) arguments).runs twins
  rw [← shares.chunk] at resumes
  obtain ⟨valueHeight, frameHeight, mayYield, calling, callEnters⟩ :=
    enter_scriptCall idle admitted calls world
  obtain ⟨resuming, resumeEnters⟩ := enter_firstResume fresh letIn resumes world
  have stores : Store.Twins creating Store.main target
      ((store.setAccess Store.main .executing).modifyCoroutine Store.main
        ({ · with processor := called }))
      (twin.modifyCoroutine target fun coroutine =>
        ⟨.running, .executing, coroutine.parent, resumed⟩) := by
    have still : (store.setAccess Store.main .executing).Has Store.main :=
      (Store.has_modifyCoroutine ..).mpr idle.known
    refine ⟨plain, { shares with coroutines := ?_ }, (Store.has_modifyCoroutine ..).mpr still,
      (Store.has_modifyCoroutine ..).mpr fresh.known, ?_⟩
    · intro creates
      simpa [Store.setAccess, Store.modifyCoroutine] using shares.coroutines creates
    · rw [Store.processor, Store.processor, Store.coroutine_modifyCoroutine still,
        Store.coroutine_modifyCoroutine fresh.known]
      exact sameStacks
  refine ⟨⟨_, world, Turn.focusAt Store.main entered, []⟩,
    ⟨_, world, Turn.focusAt target entered, []⟩, valueHeight, frameHeight, mayYield, calling,
      resuming, callEnters, resumeEnters, stores, rfl, ?_⟩
  cases entered with
  | ok pointer => exact .code pointer
  | error error => exact .ended trivial

/-- Two entries that come to the same, whatever they come to. -/
structure Machine.SameEnds (host : Host W) (target : CoroutineId) (called resumed : Machine W) :
    Prop where
  /-- The call returns a value exactly if the resume comes back with that value from a coroutine
  that is dead, and tables and cells are the same then. -/
  returned : ∀ value tables cells,
    (∃ exit, Leaves host [] called (.ok exit) tables cells ∧ exit.value = value) ↔
      ∃ exit, Leaves host [] resumed (.ok exit) tables cells ∧ exit.status = .dead ∧
        exit.value = value
  /-- The call fails exactly if the resume fails with the same error, and so are they then. -/
  failed : ∀ error tables cells, Leaves host [] called (.error error) tables cells ↔
    Leaves host [] resumed (.error error) tables cells
  /-- The handle of the coroutine tells the same as the result of the resume. -/
  status : ∀ after later exit, Returns host [] resumed after later (.ok exit) →
    after.status target = .dead
  diverged : called.Diverges host ↔ resumed.Diverges host

/-- A function does the same in a coroutine that never yields as in a call. The call begins on the
script's own processor, at rest, and the resume on a fresh coroutine of a store that shares all
objects with the store of the call; the two may be the same store. -/
theorem call_agrees_with_resume (plain : store.chunk.IsPlain) (detached : host.Detached creating)
    (shares : Store.Shares creating store twin) (idle : store.MainIdle)
    (fresh : twin.Fresh target closure) (arguments : List Value) (world : W) :
    SameEnds host target
      (Machine.enter (store.beginScriptCall (.closure closure) arguments) world [])
      (Machine.enter (twin.beginResume target arguments) world []) := by
  obtain ⟨first, second, valueHeight, frameHeight, mayYield, calling, resuming, calls, resumes,
    alongside⟩ :=
    entries_alongside plain shares idle fresh arguments world
  rw [calls, resumes]
  have callersHandOn :
      ∀ waiting ∈ [Pending.closeCall Store.main valueHeight frameHeight mayYield calling,
      .release Store.main], waiting.HandsOn host := by simp [handsOn_closeCall, handsOn_release]
  have resumersHandOn : ∀ waiting ∈ [Pending.closeResume target .notStarted resuming],
      waiting.HandsOn host := by simp [handsOn_closeResume]
  have same := alongside.handedOn detached callersHandOn resumersHandOn
  refine ⟨fun value tables cells => ⟨?_, ?_⟩,
    fun error tables cells => (same _ tables cells).1, ?_, ?_⟩
  · rintro ⟨exit, leaves, rfl⟩
    have whole := (same _ tables cells).2 leaves
    cases exit with
    | returned value => exact ⟨.returned value, (same _ tables cells).1.mp leaves, rfl, rfl⟩
    | yielded value resumeAt => exact whole.elim
  · rintro ⟨exit, leaves, _, rfl⟩
    exact ⟨exit, (same _ tables cells).1.mpr leaves, rfl⟩
  · intro after later exit returns
    exact alongside.dead detached returns
  · rw [diverges_iff_leaves, diverges_iff_leaves]
    exact forall_congr' fun outcome => forall_congr' fun tables => forall_congr' fun cells =>
      not_congr (same outcome tables cells).1

end

/-! ### A function that sets a global -/

section

open Machine

/-- A main body that sets a global to true and returns it. -/
def markingChunk : Chunk where
  functions := #[⟨"main", 0, 0, false⟩]
  code := #[.literal (.boolean true), .storeGlobal "seen", .loadGlobal "seen", .ret 1]

/-- A host that says nothing has nothing to ask for. -/
theorem silent_detached : Host.silent.Detached False :=
  ⟨fun _ _ _ _ _ => rfl, fun _ _ _ _ => trivial⟩

/-- The call of the main body returns what it has set. So does the coroutine on it that has been
created in the same script, and it leaves the same behind. -/
theorem marking_resumed :
    let store := Store.sample markingChunk
    let twin := (store.createCoroutine .mainBody).2
    let called := Machine.enter (store.beginScriptCall .mainBody []) () []
    let resumed := Machine.enter (twin.beginResume 1 []) () []
    store.MainIdle ∧ twin.Fresh 1 ⟨0, ⟨0, []⟩⟩ ∧ ∃ exit tables cells,
      Leaves Host.silent [] called (.ok exit) tables cells ∧ exit.value.isTruthy = true ∧
        ∃ other, Leaves Host.silent [] resumed (.ok other) tables cells ∧ other.status = .dead ∧
          other.value = exit.value := by
  intro store twin called resumed
  have plain : store.chunk.IsPlain := by decide
  have idle : store.MainIdle := Store.mainIdle_initial _ _ _
  obtain ⟨fresh, shares⟩ :=
    Store.fresh_of_create (show store.createCoroutine .mainBody = (.ok 1, twin) from rfl)
  have agree := call_agrees_with_resume plain silent_detached shares idle fresh [] ()
  have ends :
      ((called.run .silent 7).outcome?.bind Except.toOption).any (·.value.isTruthy) = true := by
    decide +kernel
  obtain ⟨exit, answered, truthy⟩ := (Option.any_eq_true _ _).mp ends
  obtain ⟨outcome, reached, isOk⟩ := Option.bind_eq_some_iff.mp answered
  cases outcome with
  | error error => cases isOk
  | ok value =>
    obtain rfl : value = exit := Option.some.inj isOk
    have alone : called.under [] = called := by simp [under]
    have returns : Returns Host.silent [] (called.under []) _ _ _ :=
      returns_of_outcome called 7 reached
    rw [alone] at returns
    have leaves : Leaves Host.silent [] called (.ok value) _ _ := ⟨_, _, returns, rfl, rfl⟩
    exact ⟨idle, fresh, value, _, _, leaves, truthy, (agree.returned _ _ _).mp ⟨value, leaves, rfl⟩⟩

end

end CoroutineVM
