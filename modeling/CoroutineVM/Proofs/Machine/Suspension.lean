import CoroutineVM.Proofs.Machine.Resumes

/-!
# Coroutines that have yielded

A coroutine that has yielded keeps its stacks and the place where it goes on until it is entered
again, whatever the host and other coroutines do in the meantime. Nobody can touch them: every move
that changes the processor of a coroutine needs someone who waits on it, and a resume that is turned
away has moved nothing. The next resume that is let in goes on at that place, with one value more on
the stack.
-/

namespace CoroutineVM

open Processor

variable {W : Type} {host : Host W} {rules : Rules} {id : CoroutineId}

/-- A coroutine has stopped with these stacks, to go on at `resumeAt`. -/
structure Suspended (stopped : Processor) (resumeAt : Nat) (coroutine : Coroutine) : Prop where
  values : coroutine.processor.values = stopped.values
  frames : coroutine.processor.frames = stopped.frames
  savedPointer : coroutine.processor.savedPointer = some resumeAt
  status : coroutine.status = .suspended

section

variable {stopped : Processor} {resumeAt : Nat}

/-- Only a move by which someone comes to wait on it changes more of a suspended coroutine than its
guard and the access to it. -/
theorem Move.suspended {before after : Seen} (move : Move rules id before after)
    (handled : Handled id before) (unmarked : after.marks = [])
    (suspended : Suspended stopped resumeAt before.coroutine) :
    Suspended stopped resumeAt after.coroutine := by
  obtain ⟨values, frames, savedPointer, status⟩ := suspended
  have other := handled.other_of_resumable (by rw [status]; rfl)
  cases move with
  | inner move =>
    obtain ⟨_, guard, same⟩ := move.rests handled unmarked
    rw [same]
    exact ⟨values, frames, savedPointer, status⟩
  | resumes unfinished resumable free admitted prepared => cases unmarked
  | closesResume =>
    have running : _ = CoroutineStatus.running := handled.status other
    cases running.symm.trans status
  | borrows isMain unfinished free => exact absurd isMain other
  | pushes isMain grows => exact absurd isMain other
  | releases => exact absurd handled.shaped.1 other
  | callsTop allowed isMain unfinished admitted prepared => exact absurd isMain other
  | holds before after => exact ⟨values, frames, savedPointer, status⟩
  | born other newborn => cases status

/-- In a step that leaves nobody waiting on the coroutine nobody has done so in between either: that
would be an entry, and only the last move can be one. -/
theorem Course.suspended {before after : Seen} (course : Course rules id before after)
    (sound : Sound rules id before) (idle : before.marks = []) (unmarked : after.marks = [])
    (suspended : Suspended stopped resumeAt before.coroutine) :
    Suspended stopped resumeAt after.coroutine := by
  have other := sound.handled.other_of_resumable (by rw [suspended.status]; rfl)
  induction course with
  | stays => exact suspended
  | @moves middle after earlier ready move inductionHypothesis =>
    have handled := (earlier.toMoves.sound sound).handled
    have between : middle.marks = [] := by
      refine Classical.byContradiction fun marked => ?_
      obtain ⟨status, member⟩ := handled.shaped.resumed other marked
      have deep := depth_pos member
      rw [ready.depth, idle] at deep
      cases deep
    exact move.suspended handled unmarked (inductionHypothesis between)

end

/-! ### The yield -/

/-- What is left of a processor after a yield of the top `count` values. -/
def Processor.afterYield (processor : Processor) (count : Nat) : Processor :=
  { processor with values := processor.values.truncate (processor.values.height - count) }

/-- Where a yield is permitted, a resume of the coroutine is closed next: a call inside of it would
have taken the permission away. -/
theorem Machine.Sound.closes_resume {allowances : Allowances} {machine : Machine W}
    (sound : machine.Sound allowances) (closing : Fits (.closing id) machine.pending)
    (allowed : (machine.store.processor id).mayYield = true) :
    ∃ before stopwatch rest, machine.pending = .closeResume id before stopwatch :: rest := by
  have flags : Flags true (marks id machine.pending) (machine.store.processor id).mayYield :=
    (sound.coroutines id).supplied.flags
  cases pending : machine.pending with
  | nil =>
    rw [pending] at closing
    exact closing.elim
  | cons waiting rest =>
    rw [pending] at closing flags
    obtain ⟨closes, _⟩ := closing
    cases waiting with
    | closeCall on valueHeight frameHeight mayYield stopwatch =>
      obtain rfl := Option.some.inj closes
      rw [marks_cons, Pending.mark_closeCall] at flags
      exact absurd (flags.1.symm.trans allowed) Bool.false_ne_true
    | closeResume target before stopwatch =>
      obtain rfl := Option.some.inj closes
      exact ⟨before, stopwatch, rest, rfl⟩
    | _ => cases closes

/-- The step after a yield closes the resume because of which the code has run. It sets the status
and the place to go on at, and takes nothing off the stacks. -/
theorem Machine.Sound.yield_suspends {allowances : Allowances} {machine : Machine W} {after : Store}
    {pointer count resumeAt : Nat} {value : Value} (sound : machine.Sound allowances)
    (coding : machine.focus = .code id pointer)
    (found : machine.store.chunk.instruction? pointer = some (.yield count))
    (yields : Store.execute id (.yield count) (pointer + 1) machine.store =
      (.ok (.yielded value resumeAt), after)) :
    Suspended ((machine.store.processor id).afterYield count) (pointer + 1)
      (((machine.step host).step host).store.coroutine id) := by
  obtain ⟨allowed, ⟨_, same⟩, stopped⟩ :=
    (Store.execute_yield_ends machine.store id count (pointer + 1)).of_ok yields
  cases same
  obtain ⟨store, world, focus, pending⟩ := machine
  obtain rfl : focus = .code id pointer := coding
  obtain ⟨before, stopwatch, rest, rfl⟩ := sound.closes_resume sound.orderly.suits allowed
  have known : store.Has id := sound.known rfl
  have left : after.coroutine id =
      { store.coroutine id with processor := (store.processor id).afterYield count } := by
    rw [stopped]
    exact Store.coroutine_modifyCoroutine known _
  have still : after.Has id := by
    rw [stopped]
    simpa [Store.modifyProcessor] using known
  have closes : Machine.step host (Machine.step host ⟨store, world, .code id pointer,
      .closeResume id before stopwatch :: rest⟩) = Machine.stepSettled host
        (.ok (.yielded value (pointer + 1)))
          (.closeResume id before stopwatch) after world rest := by
    simp only [Machine.step, Machine.stepCode, found, yields]
  obtain ⟨coroutines, _⟩ := coroutines_closeResume host still before stopwatch
    (.ok (.yielded value (pointer + 1))) world
  have closed :=
    (Store.coroutine_congr coroutines id).trans (Store.coroutine_modifyCoroutine still _)
  rw [closes]
  change Suspended _ _ ((Machine.closeResume host id before stopwatch _ after world).1.coroutine id)
  rw [closed, left]
  exact ⟨rfl, rfl, rfl, rfl⟩

/-! ### The next resume -/

/-- A machine runs a coroutine from the place where it has stopped. Its stacks are as they were
left, with the value of the arguments on top. -/
structure Machine.Continues (stopped : Processor) (resumeAt : Nat) (arguments : List Value)
    (id : CoroutineId) (machine : Machine W) : Prop where
  focus : machine.focus = .code id resumeAt
  values : (machine.store.processor id).values.toList =
    stopped.values.toList ++ [.pack (Value.spread arguments)]
  frames : (machine.store.processor id).frames = stopped.frames

/-- A resume that finds a saved place pushes one value and goes on there, if there is room for
it. -/
theorem Processor.enterFromResume_saved (processor : Processor) {resumeAt : Nat}
    (savedPointer : processor.savedPointer = some resumeAt)
    (room : processor.values.height < processor.values.capacity) (chunk : Chunk)
    (arguments : List Value) :
    enterFromResume chunk arguments processor = (.ok resumeAt, { processor with
      savedPointer := none
      values := processor.values.append (.pack (Value.spread arguments)) }) := by
  have fits : ¬ processor.values.isFull = true := by
    rw [BoundedStack.isFull_iff]
    exact Nat.not_le.mpr room
  simp only [enterFromResume, savedPointer, push, fits, if_false, bind, Attempt.andThen, pure,
    Attempt.succeed, Bool.false_eq_true]

/-- A resume that is let in goes on where its coroutine has stopped, with the value of its arguments
on top, or it fails for want of room for that value. -/
theorem Suspended.continues {store : Store} {stopped : Processor} {resumeAt : Nat}
    {guard : ThreadGuard} (suspended : Suspended stopped resumeAt (store.coroutine id))
    (admits : store.Admits id guard) (room : stopped.values.height < stopped.values.capacity)
    (arguments : List Value) (world : W) (outer : List Pending) :
    Machine.Continues stopped resumeAt arguments id
      (Machine.enter (store.beginResume id arguments) world outer) := by
  obtain ⟨values, frames, savedPointer, _⟩ := suspended
  have known := has_of_resumable admits.resumable
  have prepared := enterFromResume_saved { store.processor id with guard := guard }
    savedPointer (values ▸ room) store.chunk arguments
  have enters := enter_beginResume admits prepared world outer
  rw [enters]
  refine ⟨rfl, ?_, ?_⟩
  · rw [Store.processor, Store.coroutine_modifyCoroutine known, BoundedStack.toList_append,
      Store.processor, values]
  · rw [Store.processor, Store.coroutine_modifyCoroutine known]
    exact frames

/-- A coroutine that has yielded stays as the yield has left it until it is entered, and then it
goes on behind the yield. It makes no difference who resumes it: a handle does so in the store of
the machine, and an instruction or a function of the host in the store in which its own coroutine
has become normal. -/
theorem suspended_coroutine_frozen {chunk : Chunk} {settings : Settings} {thread : ThreadId}
    {operations later : List Operation} {machine last : Machine W} {pointer count resumeAt : Nat}
    {value : Value} {after : Store}
    (reached : Machine.Reachable host (.initial chunk settings thread) operations machine)
    (coding : machine.focus = .code id pointer)
    (found : machine.store.chunk.instruction? pointer = some (.yield count))
    (yields : Store.execute id (.yield count) (pointer + 1) machine.store =
      (.ok (.yielded value resumeAt), after))
    (leads : Machine.LeadsWhile host (fun machine => machine.store.access id ≠ .executing)
      ((machine.step host).step host) later last) :
    let stopped := (machine.store.processor id).afterYield count
    Suspended stopped (pointer + 1) (last.store.coroutine id) ∧
      (∀ guard, last.store.Admits id guard → stopped.values.height < stopped.values.capacity →
        ∀ (arguments : List Value) (world : W) (outer : List Pending),
          Machine.Continues stopped (pointer + 1) arguments id
            (Machine.enter (last.store.beginResume id arguments) world outer)) ∧
      ∀ (arguments : List Value) (store : Store) (world : W) (outer : List Pending),
        ResumeStarts host last id arguments store world outer → ∀ guard, store.Admits id guard →
          stopped.values.height < stopped.values.capacity →
            Machine.Continues stopped (pointer + 1) arguments id
              (Machine.enter (store.beginResume id arguments) world outer) := by
  intro stopped
  have sound := (reachable_sound (guardsAllowed host _) reached).1
  have frozen : Suspended stopped (pointer + 1) (last.store.coroutine id) := by
    refine leads.keeps (fun machine => Suspended stopped (pointer + 1) (machine.store.coroutine id))
      (reached.leads (.steps (.steps .stays))) ?_ (sound.yield_suspends coding found yields)
    intro allowances before after sound advances idleBefore idleAfter suspended
    have still : ∀ {machine : Machine W}, machine.Sound allowances →
        machine.store.access id ≠ .executing → (machine.seen id).marks = [] :=
      fun sound idle => (sound.coroutines id).handled.unmarked idle
    exact (advances.courses id).suspended (sound.coroutines id) (still sound idleBefore)
      (still (advances.sound sound) idleAfter) suspended
  refine ⟨frozen, fun guard admits room arguments world outer =>
    frozen.continues admits room arguments world outer, ?_⟩
  intro arguments store world outer starts guard admits room
  have sound := (reachable_sound (guardsAllowed host _)
    ((reached.leads (.steps (.steps .stays))).leads leads.leads)).1
  have known : last.store.Has id := has_of_resumable (by rw [Store.status, frozen.status]; rfl)
  have same := starts.keeps sound known admits
  rw [← same] at frozen
  exact frozen.continues admits room arguments world outer

/-! ### A resume after a yield -/

/-- The script whose coroutine is about to yield. -/
def yieldingMachine : Machine Unit := .sample .silent () yieldingChunk (.call .mainBody []) 4

/-- The script with the yield is one that a run leads to. -/
theorem reachable_yieldingMachine : Machine.Reachable Host.silent (.sample yieldingChunk)
    [.call .mainBody []] yieldingMachine := reachable_sample ..

/-- The script once its own code goes on. -/
def yieldedMachine : Machine Unit := ((yieldingMachine.step .silent).step .silent).step .silent

/-- The coroutine stays as its yield has left it while the script's own code goes on, and a resume
without arguments goes on behind the yield. -/
theorem yielded_coroutine_frozen :
    let stopped := (yieldingMachine.store.processor 1).afterYield 1
    yieldedMachine.focus = .code Store.main 3 ∧
      Suspended stopped 6 (yieldedMachine.store.coroutine 1) ∧
      Machine.Continues stopped 6 [] 1
        (Machine.enter (yieldedMachine.store.beginResume 1 []) () []) := by
  have coding : yieldingMachine.focus = .code 1 5 := by
    cbv
  have found : yieldingMachine.store.chunk.instruction? 5 = some (.yield 1) := by
    cbv
  have yields : (Store.execute 1 (.yield 1) 6 yieldingMachine.store).1 = .ok (.yielded .nil 6) := by
    cbv
  have idle : ((yieldingMachine.step .silent).step .silent).store.access 1 ≠ .executing := by
    decide +kernel
  have free : yieldedMachine.store.access 1 = .free := by
    decide +kernel
  have goesOn : yieldedMachine.focus = .code Store.main 3 := by
    cbv
  have admits : yieldedMachine.store.Admits 1 ⟨some 0, 1⟩ :=
    ⟨by decide +kernel, free, by cbv⟩
  have room : ((yieldingMachine.store.processor 1).afterYield 1).values.height <
      ((yieldingMachine.store.processor 1).afterYield 1).values.capacity := by
    decide +kernel
  have executing : yieldedMachine.store.access 1 ≠ .executing := by
    simp [free]
  have leads : Machine.LeadsWhile .silent (fun machine => machine.store.access 1 ≠ .executing)
      ((yieldingMachine.step .silent).step .silent) [] yieldedMachine :=
    .steps (.stays idle) executing
  have reached := reachable_yieldingMachine
  -- Nothing is to be evaluated from here on.
  generalize yieldedMachine = last at *
  generalize yieldingMachine = machine at *
  obtain ⟨frozen, continues, _⟩ :=
    suspended_coroutine_frozen reached coding found (Prod.ext yields rfl) leads
  exact ⟨goesOn, frozen, continues ⟨some 0, 1⟩ admits room [] () []⟩

end CoroutineVM
