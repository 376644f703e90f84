import CoroutineVM.Proofs.Machine.Isolation
import CoroutineVM.Proofs.Machine.Runs

/-!
# Calls put everything back

A call keeps two heights and a flag and goes back to them when it is closed, whatever has happened
in between. That this restores the stacks, and not merely their heights, is because nobody has
touched what lies below: the processor is executing, so that nobody else can have it, and whoever
enters it from within the call stands on the call. The guard comes back because every entry is
matched by its end.

The call is looked at in isolation, without those who wait outside of it. Then the moves of its
coroutine are those of one in use, and what they keep is what the call began with. That code finds
its frames is taken from the whole machine, which is sound.
-/

namespace CoroutineVM

open Processor

variable {W : Type} {host : Host W} {rules : Rules} {id : CoroutineId}

/-! ### Coroutines within an entry -/

/-- What may happen within an entry, if guards may be operated by hand on this condition. -/
def Allowances.within (guards : Prop) : Allowances := ⟨guards, False, fun _ => True⟩

/-- An entry is looked at without those who wait outside of it. What every move of a coroutine keeps
then still holds when the entry goes back to them. -/
theorem Machine.Returns.keeps {guards : Prop} {outer : List Pending} {machine isolated : Machine W}
    {after : Store} {later : W} {outcome : Outcome} {holds : Seen → Prop}
    (returns : Machine.Returns host outer machine after later outcome)
    (allowed : GuardsAllowed guards host []) (isUnder : machine = isolated.under outer)
    (orderly : Orderly isolated)
    (kept : ∀ {before after}, Move (isolated.store.rules (.within guards)) id before after →
      holds before → holds after)
    (first : holds (isolated.seen id)) : holds ⟨after.coroutine id, [], .apart⟩ := by
  induction returns generalizing isolated with
  | back store world outcome =>
    obtain ⟨isolatedStore, isolatedWorld, focus, pending⟩ := isolated
    simp only [Machine.under, Machine.mk.injEq, List.self_eq_append_left] at isUnder
    obtain ⟨rfl, rfl, rfl, rfl⟩ := isUnder
    exact first
  | @onward machine store world outcome busy rest inductionHypothesis =>
    subst isUnder
    have steps : (isolated.under outer).step host = (isolated.step host).under outer :=
      step_under isolated (busy_under.mpr busy)
    have advances :
        Advances (isolated.store.rules (.within guards)) isolated (isolated.step host) :=
      step_advances host orderly (fun _ _ => trivial) (fun _ _ => trivial)
        fun _ => allowed.request
    apply inductionHypothesis steps advances.orderly
    · rw [advances.lasts.rules]
      exact kept
    · exact Moves.induct kept (advances.moves id) first

/-! ### A coroutine in a call -/

/-- Whether this mark can lie above the mark of a call. -/
def Mark.Nests : Mark → Prop
  | .call _ _ _ | .wake => True
  | .resume _ | .borrow => False

/-- What holds of a coroutine for the length of a call that began with the processor `before`. Its
marks are those of the call and above it. -/
structure Enclosed (ground : Ground) (thread : ThreadId) (before : Processor) (seen : Seen) :
    Prop where
  access : seen.coroutine.access = .executing
  nests : ∀ mark ∈ seen.marks, mark.Nests
  laid : Laid ground seen
  roomy : Roomy (2 ^ 53) seen.coroutine.processor
  flags : Flags before.mayYield seen.marks seen.coroutine.processor.mayYield
  guard : seen.coroutine.processor.guard = nested before.guard thread (depth seen.marks)
  entry : seen.coroutine.processor.entry = before.entry
  savedPointer : seen.coroutine.processor.savedPointer = before.savedPointer

/-- Nobody but a call or one who waits to be woken puts a mark on a coroutine in use, so that none
of the others gets there in a call. -/
theorem Inner.nests {before after : Seen} (move : Inner rules before after)
    (nests : ∀ mark ∈ before.marks, mark.Nests) : ∀ mark ∈ after.marks, mark.Nests := by
  cases move with
  | calls used unfinished admitted prepared => exact List.forall_mem_cons.mpr ⟨trivial, nests⟩
  | waits driven unfinished running => exact List.forall_mem_cons.mpr ⟨trivial, nests⟩
  | closesCall => exact (List.forall_mem_cons.mp nests).2
  | wakes => exact (List.forall_mem_cons.mp nests).2
  | _ => exact nests

section

variable {ground : Ground} {start : Processor}

/-- Nothing but a move of a coroutine in use can happen to one in a call: it is not free to be
resumed or borrowed, and nobody waits for its resume or its return inside the call. -/
theorem Move.inner_of_nested {before after : Seen} (move : Move rules id before after)
    (access : before.coroutine.access = .executing) (nests : ∀ mark ∈ before.marks, mark.Nests) :
    Inner rules before after := by
  cases move with
  | inner move => exact move
  | resumes unfinished resumable free admitted prepared => cases free.symm.trans access
  | borrows isMain unfinished free => cases free.symm.trans access
  | holds idle after => exact absurd access idle
  | born other newborn => cases access
  | closesResume => exact (nests _ List.mem_cons_self).elim
  | pushes isMain grows => exact (nests _ List.mem_cons_self).elim
  | releases => exact (nests _ List.mem_cons_self).elim
  | callsTop allowed isMain unfinished admitted prepared =>
    exact (nests _ List.mem_cons_self).elim

/-- Such moves keep what holds of a coroutine in a call. Its access, its function and the place
where it goes on are kept by all inner moves, and its stacks by those above the ground of the
call. -/
theorem Move.enclosed {before after : Seen} (chunk : rules.chunk = ground.chunk)
    (consistent : Consistent start.guard)
    (admits : start.guard.owner = none ∨ start.guard.owner = some rules.thread)
    (spared : ¬ rules.guards) (move : Move rules id before after)
    (enclosed : Enclosed ground rules.thread start before) :
    Enclosed ground rules.thread start after := by
  have inner := move.inner_of_nested enclosed.access enclosed.nests
  obtain ⟨entry, saved, room⟩ := inner.keepsSupplies
  have roomy := room _ enclosed.roomy
  exact ⟨inner.access.trans enclosed.access, inner.nests enclosed.nests,
    inner.laid chunk enclosed.roomy.room roomy.height enclosed.laid, roomy,
      inner.flags enclosed.flags,
    inner.guard consistent admits spared enclosed.guard,
    entry.trans enclosed.entry, saved.trans enclosed.savedPointer⟩

/-- A call that goes back to those who wait outside has kept its coroutine to itself. -/
theorem enclosed_returns {outer : List Pending} (spares : GuardsSpared host [])
    (consistent : Consistent start.guard) {machine isolated : Machine W} {after : Store} {later : W}
    {outcome : Outcome} (returns : Machine.Returns host outer machine after later outcome)
    (isUnder : machine = isolated.under outer) (orderly : Orderly isolated)
    (chunk : isolated.store.chunk = ground.chunk)
    (admits : start.guard.owner = none ∨ start.guard.owner = some isolated.store.thread)
    (enclosed : Enclosed ground isolated.store.thread start (isolated.seen id)) :
    Enclosed ground isolated.store.thread start ⟨after.coroutine id, [], .apart⟩ :=
  returns.keeps spares isUnder orderly
    (fun move => move.enclosed chunk consistent admits fun spared => spared) enclosed

end

/-! ### Where calls begin -/

/-- The places where a call can begin: a processor, its callee or none if that lies on the stack,
the store, and those who wait outside of the call. -/
inductive CallStarts (machine : Machine W) :
    CoroutineId → Option Value → Store → List Pending → Prop where
  /-- A host function has a function called on the processor that it runs on. -/
  | inside {id : CoroutineId} {event : HostEvent} (callee : Value)
      (hosting : machine.focus = .host id event) :
      CallStarts machine id (some callee) machine.store (.hostCall id :: machine.pending)
  /-- A host function has a function called through the script, whose own processor is free. -/
  | through {id : CoroutineId} {event : HostEvent} (callee : Value)
      (hosting : machine.focus = .host id event) (free : machine.store.access Store.main = .free) :
      CallStarts machine Store.main (some callee) (machine.store.setAccess Store.main .executing)
        (.release Store.main :: .hostCall id :: machine.pending)
  /-- A function is called from outside while nothing runs. -/
  | outside (callee : Option Value) (rests : machine.atRest = true)
      (free : machine.store.access Store.main = .free) :
      CallStarts machine Store.main callee (machine.store.setAccess Store.main .executing)
        [.release Store.main]

/-- What is sound in one world of the host is so in every other one. -/
theorem Machine.Sound.inWorld {W' : Type} {allowances : Allowances} {store : Store} {world : W}
    {focus : Focus} {pending : List Pending}
    (sound : Machine.Sound allowances ⟨store, world, focus, pending⟩) (other : W') :
    Machine.Sound allowances ⟨store, other, focus, pending⟩ :=
  ⟨⟨sound.orderly.suits, sound.orderly.known, sound.orderly.main⟩, sound.coroutines⟩

/-- What a call finds when it begins. -/
structure Callable (id : CoroutineId) (store : Store) : Prop where
  known : store.Has id
  main : store.Has Store.main
  access : store.access id = .executing
  roomy : Roomy (2 ^ 53) (store.processor id)
  consistent : Consistent (store.processor id).guard

/-- The script's own processor, once it is taken, is found as a call has to find it: borrowing it
has changed the access alone. -/
theorem callable_main {allowances : Allowances} {machine : Machine W}
    (small : machine.store.settings.valueCapacity ≤ 2 ^ 53) (sound : machine.Sound allowances) :
    Callable Store.main (machine.store.setAccess Store.main .executing) := by
  have known := sound.orderly.main
  have coroutine := sound.coroutines Store.main
  have taken : (machine.store.setAccess Store.main .executing).coroutine Store.main =
      { machine.store.coroutine Store.main with access := .executing } :=
    Store.coroutine_modifyCoroutine known _
  refine ⟨by simpa [Store.setAccess] using known, by simpa [Store.setAccess] using known,
    ?_, ?_, ?_⟩
  · rw [Store.access, taken]
  · rw [Store.processor, taken]
    exact coroutine.supplied.roomy.mono small
  · rw [Store.processor, taken]
    exact coroutine.supplied.consistent

/-- A sound machine is sound after the beginning of a call, and the call finds its processor as it
should be. -/
theorem CallStarts.enters {W' : Type} {fromTop : Prop} {machine : Machine W'}
    {callee : Option Value} {store : Store} {outer : List Pending}
    (small : machine.store.settings.valueCapacity ≤ 2 ^ 53)
    (sound : machine.Sound ⟨True, fromTop, fun _ => True⟩)
    (starts : CallStarts machine id callee store outer) (arguments : List Value) (world : W) :
    (∃ fromTop, (Machine.enter (store.beginCall id callee arguments) world outer).Sound
      ⟨True, fromTop, fun _ => True⟩) ∧ Callable id store := by
  cases starts with
  | @inside _ event callee hosting =>
    obtain ⟨store, earlier, focus, pending⟩ := machine
    obtain rfl : focus = .host id event := hosting
    have marked := (driven_of_function sound.orderly.suits).ne_nil
    have coroutine := sound.coroutines id
    have here := sound.inWorld world
    have advances : Advances (store.rules ⟨True, fromTop, fun _ => True⟩) _ _ :=
      advances_request world (.call callee arguments) here.orderly fun _ => trivial
    exact ⟨⟨fromTop, advances.sound here⟩, sound.orderly.known id marked, sound.orderly.main,
      coroutine.handled.access.mpr marked, coroutine.supplied.roomy.mono small,
        coroutine.supplied.consistent⟩
  | @through on event callee hosting free =>
    refine ⟨?_, callable_main small sound⟩
    obtain ⟨store, earlier, focus, pending⟩ := machine
    obtain rfl : focus = .host on event := hosting
    have here := sound.inWorld world
    have advances : Advances (store.rules ⟨True, fromTop, fun _ => True⟩) _ _ :=
      advances_request world (.callScript callee arguments) here.orderly fun _ => trivial
    have after := advances.sound here
    rw [Machine.stepRequest, Store.beginScriptCall, enter_borrowing free] at after
    exact ⟨fromTop, after⟩
  | outside callee rests free =>
    refine ⟨⟨True, ?_⟩, callable_main small sound⟩
    obtain ⟨store, earlier, focus, pending⟩ := machine
    obtain ⟨outcome, rfl, rfl⟩ := atRest_iff.mp rests
    have here := (sound.resting True rests).inWorld world
    cases callee with
    | some callee =>
      have after := (here.begin rfl (.call callee arguments) (fun _ => trivial) (fun _ => trivial)
        world).sound here
      rw [Operation.begin, Store.beginScriptCall, enter_borrowing free] at after
      exact after
    | none =>
      have after := (here.begin rfl (.callTop arguments) (fun _ => trivial) (fun _ => trivial)
        world).sound here
      rw [Operation.begin, enter_borrowing free] at after
      exact after

/-! ### What a call leaves -/

/-- The values that a call leaves in their places: all of them, but for its callee if that lay on
top. -/
def valuesLeft (callee : Option Value) (before : Processor) : List Value :=
  if callee.isSome then before.values.toList else before.values.toList.dropLast

/-- The height that a call goes back to is that of the values that it leaves. Its callee lies above
that height if it came from the stack. -/
theorem take_floorOfCall (callee : Option Value) (before : Processor) :
    before.values.toList.take (floorOfCall callee before) = valuesLeft callee before := by
  cases callee with
  | some callee => exact List.take_length
  | none => simp [floorOfCall, valuesLeft, List.dropLast_eq_take]

/-- The ground of a call: what was there when it began. -/
def Ground.ofCall (chunk : Chunk) (callee : Option Value) (before : Processor) : Ground where
  chunk := chunk
  lenient := fun _ => callee = none
  bottom := fun values frames => values = valuesLeft callee before ∧ frames = before.activeFrames

/-- The beginning of an admitted call, looked at without those outside: its coroutine has one mark,
and nobody else is concerned. -/
theorem call_isolated {store : Store} {callee : Option Value} {guard : ThreadGuard}
    (known : store.Has id) (main : store.Has Store.main) (admitted : store.passGuard id = .ok guard)
    {arguments : List Value} {entered : Except ScriptError Nat} {processor : Processor}
    (prepared : enterFromHost store.chunk callee arguments
      { store.processor id with guard := guard, mayYield := false } = (entered, processor))
        (world : W) :
    let isolated := Machine.enter (store.beginCall id callee arguments) world []
    Orderly isolated ∧ Store.Lasts store isolated.store ∧
      isolated.seen id = ⟨{ store.coroutine id with processor := processor },
        [.call (floorOfCall callee (store.processor id)) (store.processor id).frames.height
          (store.processor id).mayYield], .entered entered⟩ := by
  have enters := enter_beginCall known admitted prepared world []
  intro isolated
  have same : isolated = _ := enters
  have marked := Pending.mark_closeCall id (floorOfCall callee (store.processor id))
    (store.processor id).frames.height (store.processor id).mayYield
      (store.counters.start? .execution)
  have fits : Fits (.closing id) isolated.pending := by
    rw [same]
    exact ⟨rfl, trivial⟩
  rw [same] at fits ⊢
  refine ⟨⟨suits_focusAt fits entered, ?_, ?_⟩, Store.lasts_modifyCoroutine _ _ _, ?_⟩
  · intro other othersMark
    have isSame : other = id := by
      refine Classical.byContradiction fun different => othersMark ?_
      simp [marks, Pending.mark?, Ne.symm different]
    simpa [isSame] using known
  · simpa using main
  · rw [Machine.seen, standing_focusAt fits, marks_cons, marked,
      Store.coroutine_modifyCoroutine known]
    rfl

/-- After an admitted call has been prepared, its coroutine is in it, on the ground of what was
there. This holds of a call that could not be entered, too. -/
theorem call_enclosed {store : Store} {callee : Option Value} {guard : ThreadGuard}
    (callable : Callable id store) (admitted : store.passGuard id = .ok guard)
    (arguments : List Value) (world : W) :
    let isolated := Machine.enter (store.beginCall id callee arguments) world []
    Orderly isolated ∧ Store.Lasts store isolated.store ∧
      Enclosed (.ofCall store.chunk callee (store.processor id)) store.thread (store.processor id)
        (isolated.seen id) := by
  cases prepared : enterFromHost store.chunk callee arguments
    { store.processor id with guard := guard, mayYield := false } with
  | mk entered processor =>
    obtain ⟨entry, saved, mayYield, owned, room⟩ := aligned_of_calls prepared
    have roomy := room _ callable.roomy
    obtain ⟨orderly, lasts, seen⟩ :=
      call_isolated callable.known callable.main admitted prepared world
    refine ⟨orderly, lasts, ?_⟩
    rw [seen]
    refine ⟨callable.access, by simp [Mark.Nests], ?_, roomy, ⟨mayYield, rfl⟩, ?_, entry, saved⟩
    · exact laid_call prepared roomy.height rfl rfl (fun missing => missing)
        ⟨take_floorOfCall callee (store.processor id), rfl⟩
    · obtain ⟨opened, _⟩ := enter_eq admitted
      exact owned.trans opened

/-- A processor is as it was before a call, with these values. -/
structure Restored (values : List Value) (before after : Processor) : Prop where
  values : after.values.toList = values
  frames : after.frames.toList = before.frames.toList
  mayYield : after.mayYield = before.mayYield
  savedPointer : after.savedPointer = before.savedPointer
  entry : after.entry = before.entry
  guard : after.guard = before.guard

/-- At the end of a call its coroutine has kept what the call began with. -/
theorem Enclosed.restored {chunk : Chunk} {callee : Option Value} {thread : ThreadId}
    {before : Processor} {coroutine : Coroutine}
    (enclosed : Enclosed (.ofCall chunk callee before) thread before ⟨coroutine, [], .apart⟩) :
    Restored (valuesLeft callee before) before coroutine.processor := by
  obtain ⟨values, frames⟩ := enclosed.laid.whole trivial
  exact ⟨values, List.reverse_inj.mp frames, enclosed.flags, enclosed.savedPointer, enclosed.entry,
    enclosed.guard⟩

/-- The values after a call: those that it leaves in their places if the guard lets it in, and all
of them if it does not. -/
def Store.valuesAfterCall (store : Store) (id : CoroutineId) (callee : Option Value) : List Value :=
  match store.passGuard id with
  | .ok _ => valuesLeft callee (store.processor id)
  | .error _ => (store.processor id).values.toList

/-- A yield is about to be handed to someone who closes a call. -/
def Machine.ClosesYield (machine : Machine W) : Prop :=
  ∃ value resumeAt on valueHeight frameHeight mayYield stopwatch rest,
    machine.focus = .settled (.ok (.yielded value resumeAt)) ∧
      machine.pending = .closeCall on valueHeight frameHeight mayYield stopwatch :: rest

/-- Nobody yields in a call, because the call has taken the permission away. So the arm for a yield
in the end of a call is never reached. -/
theorem Machine.Sound.closes_no_yield {allowances : Allowances} {machine : Machine W}
    (sound : machine.Sound allowances) : ¬ machine.ClosesYield := by
  rintro ⟨value, resumeAt, on, valueHeight, frameHeight, mayYield, stopwatch, rest, focus, pending⟩
  obtain ⟨store, world, _, _⟩ := machine
  obtain ⟨rfl, rfl⟩ := And.intro focus pending
  have coroutine := sound.coroutines on
  have standing : (Machine.seen ⟨store, world, .settled (.ok (.yielded value resumeAt)),
      .closeCall on valueHeight frameHeight mayYield stopwatch :: rest⟩ on).standing =
        .ending (.ok (.yielded value resumeAt)) := by
    simp [Machine.seen, CoroutineVM.standing, Focus.carrier?, Pending.closes?, Focus.standing]
  have allowed := coroutine.licensed value resumeAt standing
  have flags := coroutine.supplied.flags
  rw [Machine.seen, marks_cons, Pending.mark_closeCall] at flags
  exact Bool.false_ne_true (flags.1.symm.trans allowed)

/-- A sound machine is sound after so many steps, whatever the host does: that guards are operated
by hand is allowed here. -/
theorem Machine.Sound.runs {fromTop : Prop} {first last : Machine W}
    (sound : first.Sound ⟨True, fromTop, fun _ => True⟩) (runs : Machine.Runs host first last) :
    last.Sound ⟨True, fromTop, fun _ => True⟩ := by
  induction runs with
  | refl => exact sound
  | step _ inductionHypothesis =>
    have advances := sound.step host (fun _ _ => trivial) (fun _ _ => trivial) fun _ _ _ => trivial
    exact inductionHypothesis (advances.sound sound)

/-- A call puts its processor back to how it was, whatever the code and the functions of the host do
that run because of it, and whether it ends with a value or with an error. It may begin wherever a
call can begin in a run, also in one in which guards have been operated by hand before. No yield
comes to the end of a call, neither of this one nor of one inside it. A frame is dropped by the
number of its arguments, and the bound is the one up to which that is recorded exactly. -/
theorem call_restores {W' : Type} {earlier : Host W'} {chunk : Chunk} {settings : Settings}
    {thread : ThreadId} {operations : List Operation} {machine : Machine W'}
    (small : settings.valueCapacity ≤ 2 ^ 53)
    (reached : Machine.Reachable earlier (.initial chunk settings thread) operations machine)
    {callee : Option Value} {store : Store} {outer : List Pending}
    (starts : CallStarts machine id callee store outer) (spares : GuardsSpared host [])
    (arguments : List Value) (world : W) :
    let entered := Machine.enter (store.beginCall id callee arguments) world outer
    (∀ after later outcome, Machine.Returns host outer entered after later outcome →
      Restored (store.valuesAfterCall id callee) (store.processor id) (after.processor id)) ∧
    ∀ machine, Machine.Runs host entered machine → ¬ machine.ClosesYield := by
  obtain ⟨sound, lasts⟩ := reachable_sound (guardsAllowed earlier operations) reached
  have fits : machine.store.settings.valueCapacity ≤ 2 ^ 53 := by
    rw [lasts.settings]
    exact small
  obtain ⟨⟨fromTop, sound⟩, callable⟩ := starts.enters fits sound arguments world
  intro entered
  refine ⟨?_, fun machine runs => (sound.runs runs).closes_no_yield⟩
  intro after later outcome returns
  cases admitted : store.passGuard id with
  | error error =>
    have refused : entered = _ := enter_beginCall_refused admitted world outer
    rw [refused] at returns
    cases returns with
    | back =>
      rw [Store.valuesAfterCall, admitted]
      exact ⟨rfl, rfl, rfl, rfl, rfl, rfl⟩
    | onward busy rest => exact absurd rfl (busy _ rfl)
  | ok guard =>
    obtain ⟨orderly, lasts, enclosed⟩ := call_enclosed callable admitted arguments world
    obtain ⟨_, admits⟩ := enter_eq admitted
    rw [← lasts.thread] at enclosed admits
    have final := enclosed_returns spares callable.consistent returns
      (enter_under (store.beginCall id callee arguments) world []) orderly lasts.chunk admits
        enclosed
    rw [Store.valuesAfterCall, admitted]
    exact final.restored

/-! ### A call with a failing call inside -/

/-- A main body that calls a function of the host, and a function that fails. -/
def callbackChunk : Chunk where
  functions := #[⟨"main", 0, 0, false⟩, ⟨"fails", 3, 0, false⟩]
  code := #[.loadGlobal "back", .call 0, .ret 1, .literal (.string "no"), .raise]

/-- A host whose functions call the function that fails and hand its error on. -/
def Host.callsBack : Host Unit where
  respond := fun _ event _ world =>
    match event with
    | .invoked _ _ => (world, .call (.closure ⟨1, ⟨0, []⟩⟩) [])
    | .called outcome => (world, .finish outcome)
    | _ => (world, .finish (.ok .nil))
  executionEnded := fun _ _ _ world => (world, none)

/-- This host never operates a guard by hand. -/
theorem callsBack_spares : GuardsSpared Host.callsBack [] := by
  refine ⟨fun id event store world touches => ?_, fun _ member => by cases member⟩
  cases event <;> cases touches

/-- Makes the function of the host known to the script. -/
def callbackEdit : Edit := .setEntry Store.globals "back" (.host ⟨"back", 0⟩)

/-- The script at rest once the function of the host is known to it. -/
def callbackMachine : Machine Unit :=
  ⟨(Store.sample callbackChunk).edit callbackEdit, (), .settled (.ok (.returned .nil)), []⟩

/-- The main body fails within its callback, and the processor is as it was. The error of the inner
call is handed on by the function of the host and ends the outer call as well. -/
theorem failing_callback_restores :
    let store := callbackMachine.store.setAccess Store.main .executing
    let entered :=
      Machine.enter (store.beginCall Store.main (some .mainBody) []) () [.release Store.main]
    ∃ after later outcome,
      Machine.Returns .callsBack [.release Store.main] entered after later outcome ∧
        Restored [] (store.processor Store.main) (after.processor Store.main) := by
  intro store entered
  have reached : Machine.Reachable Host.callsBack (.sample callbackChunk) [.edit callbackEdit]
      callbackMachine :=
    ⟨(), .operates (.edit callbackEdit) () .stays rfl⟩
  have starts :
      CallStarts callbackMachine Store.main (some .mainBody) store [.release Store.main] :=
    .outside _ rfl rfl
  have rests : ((Machine.enter (store.beginCall Store.main (some .mainBody) []) () []).run
      .callsBack 11).atRest = true := by
    decide +kernel
  obtain ⟨after, later, outcome, returns⟩ := returns_of_rest _ _ rests
  have restores := (call_restores (by decide) reached starts callsBack_spares [] ()).1
  exact ⟨after, later, outcome, returns, restores after later outcome returns⟩

end CoroutineVM
