import CoroutineVM.Proofs.Machine.Traces
import CoroutineVM.Proofs.Termination.Measure

/-!
# Loops that come to an end

An entry starts a loop that carries out one instruction after the other. While it runs, functions of
the host may be called, and as long as these come to a result without entering code they leave all
frames as they are. So what is left grows smaller from one instruction to the next, wherever the
code has got to and however often functions have called themselves. The number of iterations is
bounded by what can be left at most, which depends on the length of the code and on how many frames
fit, and on nothing else.
-/

namespace CoroutineVM

open Processor

variable {W : Type} {host : Host W} {id : CoroutineId} {chunk : Chunk} {limit : Nat}

/-! ### Counting iterations -/

/-- How many iterations of the loop a step makes that begins here. -/
def Focus.iterations : Focus → Nat
  | .code _ _ => 1
  | .host _ _ | .settled _ => 0

/-- The run goes on from one machine to another one, with so many iterations of the loop in
between. -/
inductive Machine.Takes (host : Host W) : Machine W → Nat → Machine W → Prop where
  | refl (machine : Machine W) : Takes host machine 0 machine
  | step {machine last : Machine W} {count : Nat}
      (rest : Takes host (machine.step host) count last) :
      Takes host machine (machine.focus.iterations + count) last

/-- The iterations of two runs, one after the other, add up. -/
theorem Machine.Takes.trans {first middle last : Machine W} {earlier later : Nat}
    (left : Machine.Takes host first earlier middle)
    (right : Machine.Takes host middle later last) :
    Machine.Takes host first (earlier + later) last := by
  induction left with
  | refl => simpa using right
  | step _ inductionHypothesis =>
    rw [Nat.add_assoc]
    exact .step (inductionHypothesis right)

/-- A step that is no iteration. -/
theorem Machine.Takes.quiet {machine last : Machine W} {count : Nat}
    (rest : Machine.Takes host (machine.step host) count last)
    (quiet : machine.focus.iterations = 0) :
    Machine.Takes host machine count last := by
  have steps := Machine.Takes.step rest
  rwa [quiet, Nat.zero_add] at steps

/-- The run goes back to those outside with an outcome, after so many iterations at most. -/
def Machine.ComesBack (host : Host W) (outer : List Pending) (bound : Nat) (machine : Machine W) :
    Prop :=
  ∃ count store world outcome,
    Machine.Takes host machine count ⟨store, world, .settled outcome, outer⟩ ∧ count ≤ bound

section

variable {outer : List Pending} {bound : Nat} {machine : Machine W}

/-- A machine that stands at an outcome for those outside has come back to them. -/
theorem comesBack_settled (store : Store) (world : W) (outcome : Outcome) (outer : List Pending)
    (bound : Nat) : Machine.ComesBack host outer bound ⟨store, world, .settled outcome, outer⟩ :=
  ⟨0, store, world, outcome, .refl _, Nat.zero_le _⟩

/-- Who comes back within a bound does so within every greater one. -/
theorem Machine.ComesBack.mono (back : Machine.ComesBack host outer bound machine) {greater : Nat}
    (within : bound ≤ greater) : Machine.ComesBack host outer greater machine := by
  obtain ⟨count, store, world, outcome, takes, few⟩ := back
  exact ⟨count, store, world, outcome, takes, few.trans within⟩

/-- Who has come some way already needs that many iterations more. -/
theorem Machine.ComesBack.after {first : Machine W} {count : Nat}
    (takes : Machine.Takes host first count machine)
    (back : Machine.ComesBack host outer bound machine) :
    Machine.ComesBack host outer (count + bound) first := by
  obtain ⟨more, store, world, outcome, rest, few⟩ := back
  exact ⟨count + more, store, world, outcome, takes.trans rest, Nat.add_le_add_left few count⟩

/-- Whoever waits innermost and only hands on what comes is no iteration more. -/
theorem Machine.ComesBack.hand {waiting : Pending}
    (back : Machine.ComesBack host (waiting :: outer) bound machine)
    (hands : ∀ store world outcome, ∃ after later final,
      Machine.step host ⟨store, world, .settled outcome, waiting :: outer⟩ =
        ⟨after, later, .settled final, outer⟩) :
    Machine.ComesBack host outer bound machine := by
  obtain ⟨count, store, world, outcome, takes, few⟩ := back
  obtain ⟨after, later, final, steps⟩ := hands store world outcome
  have hand : Machine.Takes host ⟨store, world, .settled outcome, waiting :: outer⟩ 0
      ⟨after, later, .settled final, outer⟩ := by
    refine .quiet ?_ rfl
    rw [steps]
    exact .refl _
  exact ⟨count, after, later, final, takes.trans hand, few⟩

end

/-! ### Functions of the host -/

/-- Whether a request enters code. -/
def Request.enters : Request → Bool
  | .call _ _ | .resume _ _ | .callScript _ _ | .resumeHandle _ _ => true
  | .finish _ | .create _ | .setGlobal _ _ | .enterGuard _ | .attach _ | .resetCounters | .edit _ =>
      false

/-- The function of the host in which a machine stands comes to its result without entering code. -/
inductive Machine.Concludes (host : Host W) : Machine W → Prop where
  | finishes {machine : Machine W} {result : Except ScriptError Value}
      (wants : machine.request? host = some (.finish result)) : Concludes host machine
  | asks {machine : Machine W} {request : Request} (wants : machine.request? host = some request)
      (plain : request.enters = false) (rest : Concludes host (machine.step host)) :
      Concludes host machine

/-- Every function of the host that begins in the rest of the run comes to its result without
entering code. -/
def Machine.Attends (host : Host W) (machine : Machine W) : Prop :=
  ∀ count later id, Machine.Takes host machine count later → later.focus.begins? = some id →
    later.Concludes host

/-- What is asked of the functions of the host is asked of those that begin later on. -/
theorem Machine.Attends.later {machine later : Machine W} {count : Nat}
    (attends : machine.Attends host) (takes : Machine.Takes host machine count later) :
    later.Attends host :=
  fun _ last id rest begins => attends _ last id (takes.trans rest) begins

/-- The script is the same and no frame has changed. -/
structure Store.KeepsFrames (before after : Store) : Prop extends Store.Lasts before after where
  frames : ∀ id, before.Has id → (after.processor id).frames = (before.processor id).frames

namespace Store

variable {store : Store}

/-- Frames that stay and stay again have stayed. -/
theorem KeepsFrames.trans {first second third : Store} (left : KeepsFrames first second)
    (right : KeepsFrames second third) : KeepsFrames first third where
  toLasts := left.toLasts.trans right.toLasts
  frames := fun id known => (right.frames id (left.has known)).trans (left.frames id known)

/-- Where no coroutine is changed all frames stay. -/
theorem keepsFrames_same {before after : Store} (lasts : Lasts before after)
    (same : after.coroutines = before.coroutines) : KeepsFrames before after :=
  ⟨lasts, fun id _ => congrArg (fun coroutine => coroutine.processor.frames)
    (coroutine_congr same id)⟩

/-- A change of a coroutine that leaves its frames alone leaves all frames alone. -/
theorem keepsFrames_modify (store : Store) (id : CoroutineId) {change : Coroutine → Coroutine}
    (kept : ∀ coroutine, (change coroutine).processor.frames = coroutine.processor.frames) :
    KeepsFrames store (store.modifyCoroutine id change) :=
  ⟨lasts_modifyCoroutine _ _ _, fun other _ =>
    read_modifyCoroutine (fun coroutine => coroutine.processor.frames) kept store id other⟩

/-- A new coroutine has no frames, and the others keep theirs. -/
theorem keepsFrames_spawn (parent : CoroutineId) (function : Value) (store : Store) :
    KeepsFrames store (spawn parent function store).2 := by
  obtain same | ⟨coroutine, _, same⟩ := spawn_store parent function store
  · rw [same]
    exact keepsFrames_same (.refl _) rfl
  · rw [same]
    refine ⟨⟨rfl, rfl, rfl, by simp⟩, fun id known => ?_⟩
    exact congrArg (fun coroutine => coroutine.processor.frames)
      (coroutine_push_other (Nat.ne_of_lt known))

/-- Nothing that the host changes by hand is a frame. -/
theorem keepsFrames_edit (store : Store) (change : Edit) :
    KeepsFrames store (store.edit change) := by
  cases change with
  | hold id =>
    simp only [edit, hold]
    split
    · exact keepsFrames_same (.refl _) rfl
    · exact keepsFrames_modify store id fun _ => rfl
  | letGo id =>
    simp only [edit, letGo]
    split
    · exact keepsFrames_modify store id fun _ => rfl
    · exact keepsFrames_same (.refl _) rfl
  | enterGuard id thread =>
    simp only [edit, enterGuard]
    split
    · exact keepsFrames_modify store id fun _ => rfl
    · exact keepsFrames_same (.refl _) rfl
  | leaveGuard id => exact keepsFrames_modify store id fun _ => rfl
  | _ => exact keepsFrames_same ⟨rfl, rfl, rfl, Nat.le_refl _⟩ rfl

end Store

/-- A request that enters no code leaves all frames and all who wait as they are. -/
theorem stepRequest_plain {request : Request} (plain : request.enters = false) (id : CoroutineId)
    (store : Store) (world : W) (pending : List Pending) :
    (Machine.stepRequest id request store world pending).pending = pending ∧
      store.KeepsFrames (Machine.stepRequest id request store world pending).store := by
  cases request with
  | call callee arguments => cases plain
  | resume target arguments => cases plain
  | callScript callee arguments => cases plain
  | resumeHandle target arguments => cases plain
  | finish result => exact ⟨rfl, Store.keepsFrames_same (.refl _) rfl⟩
  | create function => exact ⟨rfl, Store.keepsFrames_spawn id function store⟩
  | setGlobal name value =>
    exact ⟨rfl, Store.keepsFrames_edit store (.setEntry Store.globals name value)⟩
  | enterGuard thread =>
    simp only [Machine.stepRequest]
    split
    · exact ⟨rfl, Store.keepsFrames_modify store id fun _ => rfl⟩
    · exact ⟨rfl, Store.keepsFrames_same (.refl _) rfl⟩
  | attach debugger => exact ⟨rfl, Store.keepsFrames_edit store (.attach debugger)⟩
  | resetCounters => exact ⟨rfl, Store.keepsFrames_edit store .resetCounters⟩
  | edit change => exact ⟨rfl, Store.keepsFrames_edit store change⟩

/-- A machine at which a function of the host wants something does that next. No iteration is
counted for it, because they are those of the code. -/
theorem step_of_request {machine : Machine W} {request : Request}
    (wants : machine.request? host = some request) :
    machine.focus.iterations = 0 ∧ ∃ id later,
      machine.step host = Machine.stepRequest id request machine.store later machine.pending := by
  obtain ⟨store, world, focus, pending⟩ := machine
  cases focus with
  | code on pointer => cases wants
  | settled outcome => cases wants
  | host on event =>
    obtain rfl := Option.some.inj wants
    exact ⟨rfl, on, _, rfl⟩

/-- The result of such a function is handed on with all frames as they were. The induction is on its
requests, of which none enters code. -/
theorem Machine.Concludes.settles {machine : Machine W} (concludes : machine.Concludes host) :
    ∃ after later outcome,
      Machine.Takes host machine 0 ⟨after, later, .settled outcome, machine.pending⟩ ∧
        machine.store.KeepsFrames after := by
  induction concludes with
  | @finishes machine result wants =>
    obtain ⟨quiet, id, later, steps⟩ := step_of_request wants
    refine ⟨machine.store, later, result.map .returned, .quiet ?_ quiet,
      Store.keepsFrames_same (.refl _) rfl⟩
    rw [steps]
    exact .refl _
  | asks wants plain _ inductionHypothesis =>
    obtain ⟨quiet, id, later, steps⟩ := step_of_request wants
    obtain ⟨after, world, outcome, takes, kept⟩ := inductionHypothesis
    obtain ⟨waiting, keeps⟩ := stepRequest_plain plain id _ later _
    rw [← steps] at waiting keeps
    rw [waiting] at takes
    exact ⟨after, world, outcome, takes.quiet quiet, keeps.trans kept⟩

/-! ### One iteration -/

/-- What the loop of a coroutine relies on. -/
structure Store.Loops (chunk : Chunk) (limit : Nat) (id : CoroutineId) (store : Store) : Prop where
  script : store.chunk = chunk
  known : store.Has id
  fits : (store.processor id).Fits limit

/-- A loop goes on after whatever leaves all frames alone. -/
theorem Store.Loops.keepsFrames {before after : Store} (loops : before.Loops chunk limit id)
    (keeps : before.KeepsFrames after) : after.Loops chunk limit id := by
  have same := keeps.frames id loops.known
  exact ⟨keeps.chunk.trans loops.script, keeps.has loops.known, loops.fits.congr same⟩

/-- The processor goes on at this place with less than this is left. -/
structure Store.GoesOn (chunk : Chunk) (limit : Nat) (id : CoroutineId) (amount : Nat)
    (store : Store) (next : Nat) : Prop extends store.Loops chunk limit id where
  less : (store.processor id).remaining chunk next < amount

/-- What one iteration of the loop comes to. -/
inductive Machine.Iterates (chunk : Chunk) (limit : Nat) (id : CoroutineId) (amount : Nat)
    (outer : List Pending) : Machine W → Prop where
  /-- The loop has come to its end. -/
  | ends (store : Store) (world : W) (outcome : Outcome) :
      Iterates chunk limit id amount outer ⟨store, world, .settled outcome, outer⟩
  /-- It goes on, and less is left. -/
  | goes {store : Store} {next : Nat} (onward : store.GoesOn chunk limit id amount next)
      (world : W) :
      Iterates chunk limit id amount outer ⟨store, world, .code id next, outer⟩

section

variable {store : Store} {outer : List Pending} {amount next : Nat}

/-- An instruction ends the loop, lets it go on, or calls a function of the host. In the last two
cases less remains at the place where the code goes on than at the one where it has stood. -/
theorem step_code (host : Host W) (forward : chunk.Forward) (loops : store.Loops chunk limit id)
    (pointer : Nat) (world : W) (outer : List Pending) :
    Machine.Iterates chunk limit id ((store.processor id).remaining chunk pointer) outer
        (Machine.step host ⟨store, world, .code id pointer, outer⟩) ∨
      ∃ after next function arguments,
        Machine.step host ⟨store, world, .code id pointer, outer⟩ =
          ⟨after, world, .host id (.invoked function arguments), .hostFunction id next :: outer⟩ ∧
        after.GoesOn chunk limit id ((store.processor id).remaining chunk pointer) next := by
  rw [Machine.step, Machine.stepCode]
  cases fetched : store.chunk.instruction? pointer with
  | none => exact .inl (.ends _ _ _)
  | some instruction =>
    have inChunk : chunk.instruction? pointer = some instruction := loops.script ▸ fetched
    have effects := Store.execute_effects instruction (pointer + 1) loops.known
    have descends := Store.execute_descends loops.known fetched
      (fun target isTarget => forward.jumps pointer instruction target inChunk isTarget)
    have onward : ∀ {flow : Flow} {after : Store} {next : Nat},
        Store.execute id instruction (pointer + 1) store = (.ok flow, after) →
          flow.goesOn? = some next →
          after.GoesOn chunk limit id ((store.processor id).remaining chunk pointer) next := by
      intro flow after next reached goes
      have touches := effects.of_ok reached
      have less := (descends.of_ok reached).processor loops.fits.room next goes
      rw [loops.script] at less
      exact ⟨⟨touches.chunk.trans loops.script, touches.has loops.known,
        (aligned_effect touches.processor).fits loops.fits⟩, less⟩
    dsimp only
    split
    next => exact .inl (.ends _ _ _)
    next reached => exact .inl (.goes (onward reached rfl) world)
    next => exact .inl (.ends _ _ _)
    next => exact .inl (.ends _ _ _)
    next function arguments resumeAt after reached =>
      exact .inr ⟨after, resumeAt, function, arguments, rfl, onward reached rfl⟩
    next target arguments resumeAt after reached =>
      -- Only the instruction that resumes asks for a resume, and there is none in the chunk.
      obtain ⟨count, rfl⟩ := Store.resumes_of_execute loops.known reached
      exact absurd inChunk (forward.resumes pointer count)

/-- The result of a function of the host is pushed, unless it is an error or there is no room for
it. -/
theorem step_result (onward : store.GoesOn chunk limit id amount next) (world : W)
    (outcome : Outcome) (outer : List Pending) :
    Machine.Iterates chunk limit id amount outer
      (Machine.step host ⟨store, world, .settled outcome, .hostFunction id next :: outer⟩) := by
  cases outcome with
  | error error => exact .ends _ _ _
  | ok exit =>
    have pushes := Store.onProcessor_ends onward.known (fun _ => Keeps) Keeps
      (inWindow_push exit.value (store.processor id))
    simp only [Machine.step, Machine.stepSettled, Machine.pushResult]
    split
    next after reached =>
      have touches := pushes.of_ok reached
      have keeps : Keeps (store.processor id) (after.processor id) := touches.processor
      refine .goes ⟨⟨touches.chunk.trans onward.script, touches.has onward.known,
        keeps.toAligned.fits onward.fits⟩, ?_⟩ world
      rw [remaining_congr chunk next keeps.frames]
      exact onward.less
    next => exact .ends _ _ _

/-- Each iteration, with the function of the host that it calls, ends the loop or leaves less of
it. -/
theorem iteration_leads (forward : chunk.Forward) (loops : store.Loops chunk limit id)
    (pointer : Nat) (world : W)
    (attends : Machine.Attends host ⟨store, world, .code id pointer, outer⟩) :
    ∃ machine, Machine.Takes host ⟨store, world, .code id pointer, outer⟩ 1 machine ∧
      machine.Iterates chunk limit id ((store.processor id).remaining chunk pointer) outer := by
  have iteration : Machine.Takes host ⟨store, world, .code id pointer, outer⟩ 1
      (Machine.step host ⟨store, world, .code id pointer, outer⟩) := .step (.refl _)
  obtain iterates | ⟨called, next, function, arguments, steps, onward⟩ :=
    step_code host forward loops pointer world outer
  · exact ⟨_, iteration, iterates⟩
  · rw [steps] at iteration
    obtain ⟨after, later, outcome, takes, keeps⟩ := (attends 1 _ id iteration rfl).settles
    have still :
        after.GoesOn chunk limit id ((store.processor id).remaining chunk pointer) next := by
      refine ⟨onward.toLoops.keepsFrames keeps, ?_⟩
      rw [remaining_congr chunk next (keeps.frames id onward.known)]
      exact onward.less
    have hands :
        Machine.Takes host ⟨after, later, .settled outcome, .hostFunction id next :: outer⟩ 0
        (Machine.step host ⟨after, later, .settled outcome, .hostFunction id next :: outer⟩) :=
      .quiet (.refl _) rfl
    exact ⟨_, iteration.trans (takes.trans hands), step_result still later outcome outer⟩

/-- Every loop comes to an end, after one iteration more than is left when it begins, or fewer. The
induction is on what is left, which each iteration makes smaller, functions of the host included. -/
theorem loop_comesBack (forward : chunk.Forward) (loops : store.Loops chunk limit id)
    (pointer : Nat) (world : W)
    (attends : Machine.Attends host ⟨store, world, .code id pointer, outer⟩) :
    Machine.ComesBack host outer ((store.processor id).remaining chunk pointer + 1)
      ⟨store, world, .code id pointer, outer⟩ := by
  -- On what is left, for any store: a call or a return may lower it by more than one.
  induction left : (store.processor id).remaining chunk pointer using Nat.strong_induction_on
    generalizing store pointer world with
  | _ left inductionHypothesis =>
  subst left
  obtain ⟨machine, iteration, iterates⟩ := iteration_leads forward loops pointer world attends
  cases iterates with
  | ends after later outcome =>
    exact ((comesBack_settled after later outcome outer 0).after iteration).mono (by omega)
  | @goes after resumeAt onward later =>
    have less := onward.less
    have rest :=
      inductionHypothesis _ less onward.toLoops resumeAt later (attends.later iteration) rfl
    exact (rest.after iteration).mono (by omega)

end

end CoroutineVM
