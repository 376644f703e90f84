import CoroutineVM.Proofs.Machine.Steps
import CoroutineVM.Proofs.Store.Underlay

/-!
# Machines over another bottom

Stores that are alike differ in what lies on the two stacks of one coroutine and in nothing else;
the second of them is the first one over another bottom. A step of a machine commutes with putting
that bottom there, as long as the coroutine is in use and works above it: whoever enters it puts
something on top, whoever closes a call on it goes back to heights above the bottom, and nobody
resumes it. `Parted` collects what is needed for that.
-/

namespace CoroutineVM

open Processor

variable {W : Type} {host : Host W} {id on : CoroutineId} {underlay : Underlay}

/-! ### Stores that are alike -/

/-- The second store differs from the first one in what lies on the two stacks of one coroutine, at
the same heights, and in nothing else. -/
def Alike (id : CoroutineId) (first second : Store) : Prop :=
  ∃ (values : Array Value) (frames : Array Frame),
    values.size = (first.processor id).values.height ∧
    frames.size = (first.processor id).frames.height ∧
    second = first.modifyProcessor id fun processor =>
      { processor with
        values := { processor.values with items := values }
        frames := { processor.frames with items := frames } }

/-- What the host does is the same in stores that are alike. -/
structure Blind (id : CoroutineId) (host : Host W) : Prop where
  respond : ∀ {first second : Store}, Alike id first second → ∀ on event world,
    host.respond on event second world = host.respond on event first world
  executionEnded : ∀ {first second : Store}, Alike id first second → ∀ debugger on world,
    host.executionEnded debugger on second world = host.executionEnded debugger on first world

/-- Another bottom makes a store that is alike, as long as the stacks reach up to it: what is
replaced is as high as what is put there. -/
theorem alike_rebase {store : Store} (upon : Upon underlay (store.processor id)) :
    Alike id store (store.rebase id underlay) := by
  refine ⟨((store.processor id).values.rebase underlay.values).items,
    ((store.processor id).frames.rebase underlay.frames).items,
    BoundedStack.height_rebase upon.values, BoundedStack.height_rebase upon.frames, ?_⟩
  exact Store.modifyCoroutine_congr_at rfl

/-- The second one of two stores that are alike is the first one over another bottom, which takes up
all of both stacks. -/
theorem Alike.exists_rebase {first second : Store} (alike : Alike id first second) :
    ∃ underlay : Underlay, second = first.rebase id underlay ∧
      underlay.values.length = (first.processor id).values.height ∧
      underlay.frames.length = (first.processor id).frames.height := by
  obtain ⟨values, frames, valueHeight, frameHeight, rfl⟩ := alike
  refine ⟨⟨values.toList, frames.toList⟩, ?_, by simpa using valueHeight,
    by simpa using frameHeight⟩
  refine Store.modifyCoroutine_congr_at ?_
  have whole : ∀ {α : Type} (stack : BoundedStack α) (items : Array α), items.size = stack.height →
      stack.rebase items.toList = { stack with items := items } := by
    intro α stack items height
    refine BoundedStack.ext_toList ?_ rfl
    have rest : stack.toList.drop items.toList.length = [] := by
      simp [List.drop_eq_nil_iff, height]
    rw [BoundedStack.toList_rebase, rest, List.append_nil]
    rfl
  rw [Processor.rebase, ← Store.processor, whole _ _ valueHeight, whole _ _ frameHeight]

/-- Of two stores that are alike either one can be taken as the first, since the heights are the
same. -/
theorem Alike.symm {first second : Store} (known : first.Has id) (alike : Alike id first second) :
    Alike id second first := by
  obtain ⟨values, frames, valueHeight, frameHeight, rfl⟩ := alike
  refine ⟨(first.processor id).values.items, (first.processor id).frames.items, ?_, ?_, ?_⟩
  · rw [Store.processor_modifyProcessor known]
    exact valueHeight.symm
  · rw [Store.processor_modifyProcessor known]
    exact frameHeight.symm
  · rw [Store.modifyProcessor, Store.modifyProcessor, Store.modifyCoroutine_twice]
    exact (Store.modifyCoroutine_same rfl).symm

/-! ### Entries -/

namespace Turn

/-- A turn with this at the bottom of the stacks of one coroutine. -/
def rebase (id : CoroutineId) (underlay : Underlay) (turn : Turn) : Turn :=
  { turn with store := turn.store.rebase id underlay }

end Turn

namespace Store

variable {store : Store}

/-- Who owns a coroutine is not on its stacks. -/
theorem rebase_setGuard (guard : ThreadGuard) :
    (store.setGuard on guard).rebase id underlay = (store.rebase id underlay).setGuard on guard :=
  rebase_modifyCoroutine _ fun _ => rfl

/-- Nor is its status. -/
theorem rebase_setStatus (status : CoroutineStatus) :
    (store.setStatus on status).rebase id underlay =
      (store.rebase id underlay).setStatus on status :=
  rebase_modifyCoroutine _ fun _ => rfl

/-- Nor is whether somebody uses it. -/
theorem rebase_setAccess (access : Access) :
    (store.setAccess on access).rebase id underlay =
      (store.rebase id underlay).setAccess on access :=
  rebase_modifyCoroutine _ fun _ => rfl

/-- A call puts its own on top of what is there and keeps the heights, to which it goes back when it
is closed. -/
theorem rebase_beginCall (known : store.Has id)
    (upon : on = id → Upon underlay (store.processor id)) (callee : Value)
    (arguments : List Value) :
    (store.rebase id underlay).beginCall on (some callee) arguments =
      (store.beginCall on (some callee) arguments).rebase id underlay := by
  have heights : ((store.rebase id underlay).processor on).values.height =
        (store.processor on).values.height ∧
      ((store.rebase id underlay).processor on).frames.height =
        (store.processor on).frames.height := by
    by_cases same : on = id
    · subst same
      rw [processor_rebase known]
      exact ⟨BoundedStack.height_rebase (upon rfl).values,
        BoundedStack.height_rebase (upon rfl).frames⟩
    · rw [processor_rebase_other same]
      exact ⟨rfl, rfl⟩
  have guard : (store.rebase id underlay).passGuard on = store.passGuard on := by
    rw [passGuard, passGuard, guard_rebase]
    rfl
  rw [beginCall, beginCall, guard]
  cases store.passGuard on with
  | error error => rfl
  | ok guard =>
    have ready :
        ((store.setGuard on guard).modifyProcessor on ({ · with mayYield := false })).rebase id
        underlay = ((store.rebase id underlay).setGuard on guard).modifyProcessor on
          ({ · with mayYield := false }) := by
      rw [← rebase_setGuard]
      exact rebase_modifyCoroutine _ fun _ => rfl
    have enters : Attempt.Commutes (rebase id underlay)
        (onProcessor on (enterFromHost store.chunk (some callee) arguments))
        ((store.setGuard on guard).modifyProcessor on ({ · with mayYield := false })) := by
      refine commutes_onProcessor (by simpa [setGuard, modifyProcessor] using known) ?_
      rintro rfl
      refine commutes_enterFromHost store.chunk callee arguments ?_
      have still := upon rfl
      rw [processor_modifyProcessor (by simpa [setGuard, modifyProcessor] using known), setGuard,
        processor_modifyProcessor known]
      exact ⟨still.values, still.frames⟩
    rw [Attempt.Commutes] at enters
    simp only [heights.1, heights.2, mayYield_rebase]
    rw [← ready]
    simp only [show (store.rebase id underlay).chunk = store.chunk from rfl,
      show (store.rebase id underlay).counters = store.counters from rfl]
    rw [enters]
    rfl

/-- A coroutine that is not free is not resumed, and a resume of another one does not get at its
stacks. -/
theorem rebase_beginResume (known : store.Has id) (used : store.access id ≠ .free)
    (target : CoroutineId) (arguments : List Value) :
    (store.rebase id underlay).beginResume target arguments =
      (store.beginResume target arguments).rebase id underlay := by
  have guard : (store.rebase id underlay).passGuard target = store.passGuard target := by
    rw [passGuard, passGuard, guard_rebase]
    rfl
  simp only [beginResume, status_rebase, access_rebase, guard]
  split
  · rfl
  · split
    · rfl
    · split
      · rfl
      next free =>
        have other : target ≠ id := by
          rintro rfl
          exact free used
        cases store.passGuard target with
        | error error => rfl
        | ok guard =>
          have enters : Attempt.Commutes (rebase id underlay)
              (onProcessor target (enterFromResume store.chunk arguments))
              (((store.setGuard target guard).setStatus target .running).setAccess target
                .executing) :=
            commutes_onProcessor
              (by simpa [setGuard, setStatus, setAccess, modifyProcessor] using known)
              fun same => absurd same other
          rw [Attempt.Commutes] at enters
          simp only [← rebase_setGuard, ← rebase_setStatus, ← rebase_setAccess,
            show (store.rebase id underlay).chunk = store.chunk from rfl,
            show (store.rebase id underlay).counters = store.counters from rfl, enters]
          rfl

/-- The resumer becomes Normal before its child is entered, which leaves its stacks alone and its
access as it is. What remains is a resume as through a handle. -/
theorem rebase_beginChildResume (known : store.Has id) (used : store.access id ≠ .free)
    (target : CoroutineId) (arguments : List Value) :
    (store.rebase id underlay).beginChildResume on target arguments =
      (store.beginChildResume on target arguments).rebase id underlay := by
  simp only [beginChildResume, status_rebase]
  split
  · have still : (store.setStatus on .normal).access id ≠ .free := by
      have same : (store.setStatus on .normal).access id = store.access id :=
        @read_modifyCoroutine _ Coroutine.access ({ · with status := .normal })
          (fun _ => rfl) store on id
      exact same ▸ used
    rw [← rebase_setStatus, rebase_beginResume (by simpa [setStatus] using known) still]
    rfl
  · exact rebase_beginResume known used target arguments

/-- A call of the script itself goes to a processor that is free, hence to another one than that
with the bottom. -/
theorem rebase_beginScriptCall (known : store.Has id) (used : store.access id ≠ .free)
    (callee : Value) (arguments : List Value) :
    (store.rebase id underlay).beginScriptCall callee arguments =
      (store.beginScriptCall callee arguments).rebase id underlay := by
  simp only [beginScriptCall, borrowing, access_rebase]
  split
  · rfl
  next free =>
    have other : main ≠ id := by
      rintro rfl
      exact free used
    rw [← rebase_setAccess, rebase_beginCall (by simpa [setAccess] using known)
      (fun same => absurd same other)]
    rfl

/-- What a host changes by hand between its requests is no stack: tables, cells, counters, the
debugger, guards, and who holds a handle. -/
theorem rebase_edit (change : Edit) :
    (store.rebase id underlay).edit change = (store.edit change).rebase id underlay := by
  cases change with
  | hold other =>
    simp only [edit, hold, access_rebase]
    split
    · rfl
    · exact (rebase_setAccess _).symm
  | letGo other =>
    simp only [edit, letGo, access_rebase]
    split
    · exact (rebase_setAccess _).symm
    · rfl
  | enterGuard other thread =>
    simp only [edit, enterGuard, guard_rebase]
    split
    · exact (rebase_setGuard _).symm
    · rfl
  | leaveGuard other =>
    simp only [edit, leaveGuard, guard_rebase]
    exact (rebase_setGuard _).symm
  | _ => rfl

end Store

/-! ### Steps -/

/-- What code does on one coroutine leaves the access to every one of them as it has been, also to
itself. -/
theorem Store.Touches.access {relation : Processor → Processor → Prop} {before after : Store}
    (touches : Store.Touches on relation before after) (known : before.Has id) :
    after.access id = before.access id := by
  by_cases same : id = on
  · subst same
    obtain ⟨processor, became, _⟩ := touches.own
    rw [Store.access, became, Store.access]
  · obtain kept | ⟨unknown, _⟩ := touches.others id same
    · rw [Store.access, kept, Store.access]
    · exact absurd known unknown

namespace Machine

/-- A machine with this at the bottom of the stacks of one coroutine. -/
def rebase (id : CoroutineId) (underlay : Underlay) (machine : Machine W) : Machine W :=
  { machine with store := machine.store.rebase id underlay }

/-- Whoever waits here can be handed an outcome: a call goes back to heights above the bottom, and
no resume of the coroutine is closed. -/
def Clears (id : CoroutineId) (underlay : Underlay) : Pending → Prop
  | .closeCall on valueHeight frameHeight _ _ => on = id →
    underlay.values.length ≤ valueHeight ∧ underlay.frames.length ≤ frameHeight
  | .closeResume target _ _ => target ≠ id
  | .hostFunction _ _ | .resumeInstruction _ _ | .wake _ | .release _ | .hostCall _
  | .hostResume _ => True

/-- What the machine does next does not concern the bottom of the stacks of one coroutine. -/
structure Parted (id : CoroutineId) (underlay : Underlay) (machine : Machine W) : Prop where
  known : machine.store.Has id
  used : machine.store.access id ≠ .free
  upon : Upon underlay (machine.store.processor id)
  code : ∀ on pointer, machine.focus = .code on pointer →
    Store.Grounded id underlay on machine.store
  clears : ∀ waiting ∈ machine.pending.head?, Clears id underlay waiting

variable {store : Store} {world : W} {pending : List Pending}

/-- A machine enters what an entry has left to do without a look at the stacks. -/
theorem enter_rebase (turn : Turn) :
    enter (turn.rebase id underlay) world pending = (enter turn world pending).rebase id underlay :=
  rfl

/-- An instruction does the same over another bottom if it works above it. The instructions proper
are covered by what is known of a processor; what is left are those that enter something. -/
theorem stepCode_rebase (grounded : Store.Grounded id underlay on store)
    (used : store.access id ≠ .free) (pointer : Nat) :
    stepCode on pointer (store.rebase id underlay) world pending =
      (stepCode on pointer store world pending).rebase id underlay := by
  unfold stepCode
  rw [show (store.rebase id underlay).chunk = store.chunk from rfl]
  cases store.chunk.instruction? pointer with
  | none => rfl
  | some instruction =>
    have commutes := Store.commutes_execute grounded instruction (pointer + 1)
    rw [Attempt.Commutes] at commutes
    dsimp only
    rw [commutes]
    cases reached : Store.execute on instruction (pointer + 1) store with
    | mk outcome after =>
      cases outcome with
      | error error => rfl
      | ok flow =>
        cases flow with
        | resume target arguments resumeAt =>
          have touches :=
            (Store.execute_effects instruction (pointer + 1) grounded.own).of_ok reached
          dsimp only
          rw [Store.rebase_beginChildResume (touches.has grounded.known)
            (touches.access grounded.known ▸ used), enter_rebase]
        | _ => rfl

/-- A request of a host function does the same over another bottom, because its entries do. All
others are answered without a look at the stacks. -/
theorem stepRequest_rebase (known : store.Has id) (used : store.access id ≠ .free)
    (upon : Upon underlay (store.processor id)) (request : Request) :
    stepRequest on request (store.rebase id underlay) world pending =
      (stepRequest on request store world pending).rebase id underlay := by
  cases request with
  | finish outcome => rfl
  | call callee arguments =>
    simp only [stepRequest]
    rw [Store.rebase_beginCall known (fun _ => upon), enter_rebase]
  | resume target arguments =>
    simp only [stepRequest]
    rw [Store.rebase_beginChildResume known used, enter_rebase]
  | create function =>
    have commutes : Attempt.Commutes (Store.rebase id underlay) (Store.spawn on function) store :=
      Store.commutes_spawn known on function
    rw [Attempt.Commutes] at commutes
    simp only [stepRequest, commutes]
    rfl
  | setGlobal name value => rfl
  | callScript callee arguments =>
    simp only [stepRequest]
    rw [Store.rebase_beginScriptCall known used, enter_rebase]
  | resumeHandle target arguments =>
    simp only [stepRequest]
    rw [Store.rebase_beginResume known used, enter_rebase]
  | enterGuard thread =>
    simp only [stepRequest, Store.guard_rebase]
    split
    · rw [← Store.rebase_setGuard]
      rfl
    · rfl
  | attach debugger => rfl
  | resetCounters => rfl
  | edit change =>
    simp only [stepRequest, Store.rebase_edit]
    rfl

/-- A result is pushed on top of the stack, or it does not fit there; both depend on the height
alone. -/
theorem pushResult_rebase (known : store.Has id) (upon : Upon underlay (store.processor id))
    (resumeAt : Nat) (value : Value) :
    pushResult on resumeAt value (store.rebase id underlay) world pending =
      (pushResult on resumeAt value store world pending).rebase id underlay := by
  have commutes : Attempt.Commutes (Store.rebase id underlay) (Store.onProcessor on (push value))
      store :=
    Store.commutes_onProcessor known fun _ => commutes_push value upon
  rw [Attempt.Commutes] at commutes
  unfold pushResult
  rw [commutes]
  cases Store.onProcessor on (push value) store with
  | mk outcome after => cases outcome <;> rfl

/-- Whatever is done to another processor, the stacks of this one reach up to the bottom. So only a
change to this very processor has to be looked at. -/
theorem upon_modifyProcessor (known : store.Has id) (upon : Upon underlay (store.processor id))
    {change : Processor → Processor}
    (kept : on = id → Upon underlay (change (store.processor id))) :
    Upon underlay ((store.modifyProcessor on change).processor id) := by
  by_cases same : on = id
  · subst same
    rw [Store.processor_modifyProcessor known]
    exact kept rfl
  · rw [Store.modifyProcessor, Store.processor,
      Store.coroutine_modifyCoroutine_other (Ne.symm same)]
    exact upon

/-- A debugger is told the same, and the host, which sees the store then, does not see the
difference. -/
theorem leaveGuard_rebase (blind : Blind id host) (known : store.Has id)
    (upon : Upon underlay (store.processor id)) :
    leaveGuard host on (store.rebase id underlay) world =
      ((leaveGuard host on store world).1.rebase id underlay,
        (leaveGuard host on store world).2) := by
  have guard :
      (store.processor on).guard.leave = ((store.rebase id underlay).processor on).guard.leave := by
    rw [Store.guard_rebase]
  have still : Upon underlay
      ((store.setGuard on (store.processor on).guard.leave.2).processor id) :=
    upon_modifyProcessor known upon fun _ => ⟨upon.values, upon.frames⟩
  simp only [leaveGuard]
  rw [← guard, ← Store.rebase_setGuard,
    show ((store.setGuard on (store.processor on).guard.leave.2).rebase id underlay).debugger =
      (store.setGuard on (store.processor on).guard.leave.2).debugger from rfl]
  split
  next debugger _ _ =>
    exact congrArg (fun answer : W × Option DebuggerId =>
      ({ Store.rebase id underlay (store.setGuard on (store.processor on).guard.leave.2) with
        debugger := answer.2 }, answer.1))
          (blind.executionEnded (alike_rebase still) debugger on world)
  next => rfl

/-- A call is closed in the same way over another bottom if it goes back to heights above it. What
is cut off lies above the bottom then, and the guard that is left is the same. -/
theorem closeCall_rebase (blind : Blind id host) (known : store.Has id)
    (upon : Upon underlay (store.processor id)) {valueHeight frameHeight : Nat} (mayYield : Bool)
    (stopwatch : Option Stopwatch) (outcome : Outcome)
    (above : on = id →
      underlay.values.length ≤ valueHeight ∧ underlay.frames.length ≤ frameHeight) :
    closeCall host on valueHeight frameHeight mayYield stopwatch outcome
        (store.rebase id underlay) world =
      ((closeCall host on valueHeight frameHeight mayYield stopwatch outcome store world).1,
        Store.rebase id underlay
          (closeCall host on valueHeight frameHeight mayYield stopwatch outcome store world).2.1,
        (closeCall host on valueHeight frameHeight mayYield stopwatch outcome store
          world).2.2) := by
  have restored : (store.rebase id underlay).modifyProcessor on
        (restore valueHeight frameHeight mayYield) =
      (store.modifyProcessor on (restore valueHeight frameHeight mayYield)).rebase id underlay := by
    refine (Store.rebase_modifyCoroutine _ ?_).symm
    intro same
    obtain ⟨values, frames⟩ := above same
    simp only [restore, Processor.rebase, BoundedStack.rebase_truncate values,
      BoundedStack.rebase_truncate frames, Store.processor]
  have still : Upon underlay
      ((store.modifyProcessor on (restore valueHeight frameHeight mayYield)).processor id) := by
    refine upon_modifyProcessor known upon fun same => ?_
    obtain ⟨values, frames⟩ := above same
    constructor
    · exact (BoundedStack.height_truncate _ _).symm ▸ Nat.le_min.mpr ⟨values, upon.values⟩
    · exact (BoundedStack.height_truncate _ _).symm ▸ Nat.le_min.mpr ⟨frames, upon.frames⟩
  obtain ⟨coroutines, stops⟩ := coroutines_stopWatch stopwatch
    (store.modifyProcessor on (restore valueHeight frameHeight mayYield))
  have has := stops.has ((Store.has_modifyCoroutine store on id _).mpr known)
  rw [Store.processor, ← Store.coroutine_congr coroutines, ← Store.processor] at still
  have stopped : stopWatch stopwatch
      ((store.modifyProcessor on (restore valueHeight frameHeight mayYield)).rebase id underlay) =
      (stopWatch stopwatch
        (store.modifyProcessor on (restore valueHeight frameHeight mayYield))).rebase id
          underlay := by
    cases stopwatch <;> rfl
  simp only [closeCall, restored, stopped, leaveGuard_rebase blind has still]

/-- The resume of another coroutine is closed in the same way, since it takes nothing off this one's
stacks. -/
theorem closeResume_rebase (blind : Blind id host) (known : store.Has id)
    (upon : Upon underlay (store.processor id)) (other : on ≠ id) (before : CoroutineStatus)
    (stopwatch : Option Stopwatch) (outcome : Outcome) :
    closeResume host on before stopwatch outcome (store.rebase id underlay) world =
      ((closeResume host on before stopwatch outcome store world).1.rebase id underlay,
        (closeResume host on before stopwatch outcome store world).2) := by
  have closed : (store.rebase id underlay).modifyProcessor on (processorAfter outcome) =
      (store.modifyProcessor on (processorAfter outcome)).rebase id underlay :=
    (Store.rebase_modifyCoroutine _ fun same => absurd same other).symm
  have still : Upon underlay ((store.modifyProcessor on (processorAfter outcome)).processor id) :=
    upon_modifyProcessor known upon fun same => absurd same other
  obtain ⟨coroutines, stops⟩ := coroutines_stopWatch stopwatch
    (store.modifyProcessor on (processorAfter outcome))
  have has := stops.has ((Store.has_modifyCoroutine store on id _).mpr known)
  rw [Store.processor, ← Store.coroutine_congr coroutines, ← Store.processor] at still
  have stopped : stopWatch stopwatch
      ((store.modifyProcessor on (processorAfter outcome)).rebase id underlay) =
      (stopWatch stopwatch (store.modifyProcessor on (processorAfter outcome))).rebase id
        underlay := by
    cases stopwatch <;> rfl
  simp only [closeResume, closed, stopped, leaveGuard_rebase blind has still,
    Store.rebase_setStatus, Store.rebase_setAccess]

/-- An outcome is handed on in the same way to whoever can be handed one without getting at the
bottom. -/
theorem stepSettled_rebase (blind : Blind id host) (known : store.Has id)
    (upon : Upon underlay (store.processor id)) {waiting : Pending}
    (clears : Clears id underlay waiting) (outcome : Outcome) :
    stepSettled host outcome waiting (store.rebase id underlay) world pending =
      (stepSettled host outcome waiting store world pending).rebase id underlay := by
  cases waiting with
  | hostFunction on resumeAt =>
    cases outcome with
    | ok exit => exact pushResult_rebase known upon resumeAt _
    | error error => rfl
  | resumeInstruction on resumeAt =>
    cases outcome with
    | ok exit => exact pushResult_rebase known upon resumeAt _
    | error error =>
      simp only [stepSettled]
      split
      · rfl
      · exact pushResult_rebase known upon resumeAt _
  | closeCall on valueHeight frameHeight mayYield stopwatch =>
    simp only [stepSettled, closeCall_rebase blind known upon mayYield stopwatch outcome clears]
    rfl
  | closeResume target before stopwatch =>
    simp only [stepSettled, closeResume_rebase blind known upon clears before stopwatch outcome]
    rfl
  | wake on =>
    simp only [stepSettled, ← Store.rebase_setStatus]
    rfl
  | release on =>
    simp only [stepSettled, ← Store.rebase_setAccess]
    rfl
  | hostCall on => rfl
  | hostResume on => rfl

/-- A step of a machine does the same over another bottom, so long as it does not concern that
bottom. The cases are what a machine can stand at; each of them is one of the lemmas above. -/
theorem Parted.step_rebase {machine : Machine W} (blind : Blind id host)
    (parted : Parted id underlay machine) :
    (machine.rebase id underlay).step host = (machine.step host).rebase id underlay := by
  obtain ⟨store, world, focus, pending⟩ := machine
  obtain ⟨known, used, upon, code, clears⟩ := parted
  cases focus with
  | code on pointer => exact stepCode_rebase (code on pointer rfl) used pointer
  | host on event =>
    have told := blind.respond (alike_rebase upon) on event world
    refine Eq.trans (congrArg (fun answer : W × Request =>
      stepRequest on answer.2 (store.rebase id underlay) answer.1 pending) told) ?_
    exact stepRequest_rebase known used upon _
  | settled outcome =>
    cases pending with
    | nil => rfl
    | cons waiting pending => exact stepSettled_rebase blind known upon (clears waiting rfl) outcome

end Machine

end CoroutineVM
