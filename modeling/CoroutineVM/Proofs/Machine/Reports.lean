import CoroutineVM.Proofs.Layout.Convention
import CoroutineVM.Proofs.Machine.Chain

/-!
# How the resume of an instruction is settled

An instruction that resumes a coroutine takes its operands away, and its own coroutine then waits
until the resume is over. However that ends, at most one value takes the place of the operands: a
tuple that says how it went. An error that is fatal goes on to whoever waits for the code.

In between anything may have run, also other functions of the host. None of it concerns the
coroutine that waits. It is executing, so that it is not to be had through its handle, and its
innermost mark is not one because of which code runs, so that it is not to be entered either. It
becomes normal if it was running, and it has been woken when the outcome arrives.
-/

namespace CoroutineVM

open Processor

variable {W : Type} {host : Host W} {rules : Rules} {id target : CoroutineId}

/-! ### A coroutine that waits for another one -/

/-- A coroutine as it was, but for its status and its guard. -/
def Coroutine.apartFrom (coroutine : Coroutine) (status : CoroutineStatus) (guard : ThreadGuard) :
    Coroutine :=
  { coroutine with status := status, processor := { coroutine.processor with guard := guard } }

/-- What holds of a coroutine while it waits for the end of a resume that it has begun as `before`.
It is looked at without those who wait outside of the resume. -/
structure Aside (guards : Prop) (before : Coroutine) (seen : Seen) : Prop where
  executing : seen.coroutine.access = .executing
  same : seen.coroutine = before.apartFrom seen.coroutine.status seen.coroutine.processor.guard
  guard : ¬ guards → seen.coroutine.processor.guard = before.processor.guard
  waits : (seen.marks = [] ∧ seen.coroutine.status = before.status) ∨
    (seen.marks = [.wake] ∧ before.status = .running)

section

variable {before : Coroutine} {first second : Seen}

/-- Nothing can run on a coroutine that waits for another one: its innermost mark is that it waits,
or it has none. -/
theorem Aside.not_usable {guards : Prop} (aside : Aside guards before first) :
    ¬ Usable first.marks := by
  intro usable
  obtain ⟨unmarked, _⟩ | ⟨marked, _⟩ := aside.waits
  · rw [unmarked] at usable
    exact usable
  · rw [marked] at usable
    exact usable

/-- Nothing happens to a coroutine that waits, but that it is woken or that its guard is
operated. -/
theorem Inner.aside (move : Inner rules first second) (aside : Aside rules.guards before first) :
    Aside rules.guards before second := by
  have idle := aside.not_usable
  cases move with
  | executes driven effect => exact absurd driven.usable idle
  | falters driven effect allowed => exact absurd driven.usable idle
  | works driven keeps unfinished reaches => exact absurd driven.usable idle
  | calls used unfinished admitted prepared => exact absurd used idle
  | waits driven unfinished running => exact absurd driven.usable idle
  | closesCall => exact absurd trivial idle
  | leaves unfinished => exact ⟨aside.executing, aside.same, aside.guard, aside.waits⟩
  | @wakes coroutine marks =>
    obtain ⟨executing, same, guard, ⟨unmarked, _⟩ | ⟨marked, running⟩⟩ := aside
    · cases unmarked
    · cases marked
      refine ⟨executing, ?_, guard, .inl ⟨rfl, running.symm⟩⟩
      exact congrArg (fun coroutine => { coroutine with status := .running }) same
  | @guarded coroutine marks standing guard allowed operated =>
    obtain ⟨executing, same, _, waits⟩ := aside
    refine ⟨executing, ?_, fun spared => absurd allowed spared, waits⟩
    exact congrArg (fun coroutine : Coroutine =>
      { coroutine with processor := { coroutine.processor with guard := guard } }) same

/-- A coroutine that waits is executing and has neither been resumed nor borrowed within the resume
that it waits for, so that it is neither entered nor left as a whole. -/
theorem Move.aside (move : Move rules id first second) (aside : Aside rules.guards before first) :
    Aside rules.guards before second := by
  have executing := aside.executing
  have idle := aside.not_usable
  cases move with
  | inner move => exact move.aside aside
  | resumes unfinished resumable free admitted prepared => cases free.symm.trans executing
  | borrows isMain unfinished free => cases free.symm.trans executing
  | holds held after => exact absurd executing held
  | born other newborn => cases executing
  | closesResume => exact absurd trivial idle
  | pushes isMain grows => exact absurd trivial idle
  | releases => exact absurd trivial idle
  | callsTop allowed isMain unfinished admitted prepared => exact absurd trivial idle

end

/-! ### What the instruction begins -/

/-- The instruction takes its operands and what lies below them away and has the coroutine resumed
that the latter stands for. -/
theorem Store.execute_resumeCoroutine {store : Store} {below operands : List Value} {callee : Value}
    {count : Nat} (next : Nat) (there : store.Has id)
    (values : (store.processor id).values.toList = below ++ callee :: operands)
    (length : operands.length = count) (window : (store.processor id).base ≤ below.length)
    (isCoroutine : callee.collapse = .coroutine target) :
    execute id (.resumeCoroutine count) next store =
      (.ok (.resume target (Value.spread operands) next),
      store.modifyProcessor id fun _ => (store.processor id).lowered below.length) := by
  rw [execute, popCoroutine]
  simp only [Attempt.bind_assoc]
  refine Eq.trans (take_operands there values length window _) ?_
  rw [isCoroutine]
  rfl

/-- The resumer has been handed over to: it waits to be woken if it was running, and otherwise it
waits without a mark. -/
theorem Store.Hands.aside {store handed : Store} {waiting : List Pending} (guards : Prop)
    (hands : store.Hands id target handed waiting) (there : store.Has id)
    (executing : store.access id = .executing) (world : W) (outcome : Outcome) :
    let machine : Machine W := ⟨handed, world, .settled outcome, waiting⟩
    Fits .other waiting ∧ (store.Has Store.main → Orderly machine) ∧
      Aside guards (store.coroutine id) (machine.seen id) := by
  cases hands with
  | waits running different =>
    have marked : marks id [.wake id] = [.wake] := by
      rw [marks_cons, Pending.mark_wake]
      rfl
    refine ⟨trivial, fun main => ⟨.inl trivial, ?_, ?_⟩, ?_⟩
    · intro other othersMark
      have isSame : other = id := by
        apply Classical.byContradiction
        intro different
        simp [marks, Pending.mark?, Ne.symm different] at othersMark
      rw [isSame]
      exact (Store.has_modifyCoroutine ..).mpr there
    · exact (Store.has_modifyCoroutine ..).mpr main
    · rw [Machine.seen, Store.setStatus, Store.coroutine_modifyCoroutine there]
      exact ⟨executing, rfl, fun _ => rfl, .inr ⟨marked, running⟩⟩
  | stays apart =>
    refine ⟨trivial, fun main => ⟨.inl trivial, fun _ marked => absurd rfl marked, main⟩, ?_⟩
    exact ⟨executing, rfl, fun _ => rfl, .inl ⟨rfl, rfl⟩⟩

/-- When a resume goes back to those who wait for it, the coroutine that has begun it is as it was
before, but for what has been done to its guard by hand. -/
theorem Machine.Returns.aside {store after : Store} {world later : W} {outcome : Outcome}
    {arguments : List Value} {outer : List Pending}
    (returns : Machine.Returns host outer
      (Machine.enter (store.beginChildResume id target arguments) world outer) after later outcome)
    (there : store.Has id) (main : store.Has Store.main)
    (executing : store.access id = .executing) :
    ∃ guard, after.coroutine id = (store.coroutine id).apartFrom (store.status id) guard ∧
      (GuardsSpared host [] → guard = (store.processor id).guard) := by
  obtain ⟨handed, waiting, hands⟩ := store.hands id target
  rw [hands.enter] at returns
  -- Guards may be operated by hand only if the host does not spare them.
  let guards : Prop := ¬ GuardsSpared host []
  have allowed : GuardsAllowed guards host [] := by
    refine ⟨fun id event store world touches spares => ?_, fun _ member => by cases member⟩
    exact spares.functions id event store world touches
  obtain ⟨fits, orderly, aside⟩ := hands.aside guards there executing world (.error .coroutineDead)
  have enters : Advances (handed.rules (.within guards)) _ _ :=
    (receptive_settled (orderly main) fits).resume target arguments world
  have inside := Moves.induct Move.aside (enters.moves id) aside
  have final : Aside guards (store.coroutine id) ⟨after.coroutine id, [], .apart⟩ :=
    returns.keeps allowed (enter_under _ world waiting) enters.orderly Move.aside inside
  obtain ⟨_, same, guard, ⟨_, status⟩ | ⟨marked, _⟩⟩ := final
  · refine ⟨(after.processor id).guard, ?_, fun spares => guard fun guards => guards spares⟩
    rw [Store.status, ← status]
    exact same
  · cases marked

/-! ### How it is settled -/

/-- What is pushed when the resume of an instruction has come to this outcome, and where the machine
goes on. -/
inductive Settlement (id : CoroutineId) (resumeAt : Nat) : Outcome → List Value → Focus → Prop where
  | succeeded (exit : Exit) : Settlement id resumeAt (.ok exit)
      [.tuple (.boolean true :: exit.value.expand)] (.code id resumeAt)
  | failed {error : ScriptError} (mild : error.isFatal = false) :
      Settlement id resumeAt (.error error)
      [.tuple [.boolean false, .string error.message]] (.code id resumeAt)
  | fatal {error : ScriptError} (fatal : error.isFatal = true) :
      Settlement id resumeAt (.error error) [] (.settled (.error error))

/-- A result that fits on the stack is pushed, and the code goes on behind the instruction. -/
theorem pushResult_stack {store : Store} (room : (store.processor id).values.height <
      (store.processor id).values.capacity) (resumeAt : Nat) (value : Value) (world : W)
    (pending : List Pending) :
    Machine.pushResult id resumeAt value store world pending =
      ⟨store.modifyProcessor id fun _ => (store.processor id).stack [value], world,
        .code id resumeAt, pending⟩ := by
  rw [Machine.pushResult, Store.onProcessor_run (push_stack value room)]

/-- The code that waits for the outcome of its resume gets at most one value, for which there must
be room. -/
theorem settlement_of_step {store : Store} (there : store.Has id)
    (room : (store.processor id).values.height < (store.processor id).values.capacity)
    (resumeAt : Nat) (outcome : Outcome) (world : W) (pending : List Pending) :
    let next := Machine.step host
      ⟨store, world, .settled outcome, .resumeInstruction id resumeAt :: pending⟩
    ∃ pushed, Settlement id resumeAt outcome pushed next.focus ∧ next.pending = pending ∧
      next.store.coroutine id =
        { store.coroutine id with processor := (store.processor id).stack pushed } := by
  cases outcome with
  | ok exit =>
    simp only [Machine.step, Machine.stepSettled, pushResult_stack room]
    exact ⟨_, .succeeded exit, trivial, Store.coroutine_modifyCoroutine there _⟩
  | error error =>
    cases grave : error.isFatal with
    | false =>
      simp only [Machine.step, Machine.stepSettled, grave, Bool.false_eq_true, if_false,
        pushResult_stack room]
      exact ⟨_, .failed grave, trivial, Store.coroutine_modifyCoroutine there _⟩
    | true =>
      simp only [Machine.step, Machine.stepSettled, grave, if_true]
      refine ⟨[], .fatal grave, trivial, ?_⟩
      simp [stack, Store.processor]

/-- A coroutine that is in use is one that there is. -/
theorem Store.has_of_executing {store : Store} (executing : store.access id = .executing) :
    store.Has id := by
  apply Classical.byContradiction
  intro unknown
  rw [access, coroutine_gone unknown] at executing
  cases executing

/-- The store without the values of a coroutine from this height on. -/
def Store.lowered (id : CoroutineId) (height : Nat) (store : Store) : Store :=
  store.modifyProcessor id fun _ => (store.processor id).lowered height

/-- Taking values away changes the stack of one processor and nothing else of its coroutine. -/
theorem Store.coroutine_lowered {store : Store} (there : store.Has id) (height : Nat) :
    (store.lowered id height).coroutine id =
      { store.coroutine id with processor := (store.processor id).lowered height } :=
  coroutine_modifyCoroutine there _

/-- Whether a resume is turned away does not depend on values. -/
theorem Store.Refuses.lowered {store : Store} {error : ScriptError}
    (refuses : store.Refuses target error) (id : CoroutineId) (height : Nat) :
    (store.lowered id height).Refuses target error := by
  have reads (coroutine : Coroutine)
      (same : (store.lowered id height).coroutine target = coroutine) :
      coroutine.status = store.status target → coroutine.access = store.access target →
      coroutine.processor.guard = (store.processor target).guard →
      (store.lowered id height).Refuses target error := by
    intro status access guard
    subst same
    exact refuses.congr status access guard rfl
  obtain same | ⟨rfl, _, changed⟩ := coroutine_modify_cases store id target fun coroutine =>
    { coroutine with processor := (store.processor id).lowered height }
  · exact reads _ same rfl rfl rfl
  · exact reads _ changed rfl rfl rfl

/-- How the code of a coroutine goes on once a resume by one of its instructions has come to an
outcome: at most one value has taken the place of the operands, and the coroutine is otherwise as it
was. -/
structure Machine.ResumeSettled (host : Host W) (before : Machine W) (id : CoroutineId)
    (resumeAt : Nat) (below : List Value) (outcome : Outcome) (next : Machine W) : Prop where
  settled : ∃ pushed, Settlement id resumeAt outcome pushed next.focus ∧
    (next.store.processor id).values.toList = below ++ pushed
  /-- Its status, its frames and its flags are what they were, as is everything but values and
  guard. -/
  coroutine : next.store.coroutine id = { before.store.coroutine id with
    processor := { before.store.processor id with
      values := (next.store.processor id).values, guard := (next.store.processor id).guard } }
  /-- The guard is what it was unless functions of the host operate guards by hand. -/
  guard : GuardsSpared host [] → (next.store.processor id).guard = (before.store.processor id).guard
  pending : next.pending = before.pending

/-- What comes of an instruction that resumes a coroutine. -/
structure Machine.ResumeReports (host : Host W) (machine : Machine W) (id : CoroutineId)
    (pointer : Nat) (target : CoroutineId) (below operands : List Value) : Prop where
  /-- It takes its operands away, and the value below them, and then waits for the resume. -/
  begins : machine.step host = Machine.enter
    ((machine.store.lowered id below.length).beginChildResume id target (Value.spread operands))
    machine.world (.resumeInstruction id (pointer + 1) :: machine.pending)
  /-- A resume that is turned away ends at once, with the reason as its error. -/
  refused : ∀ error, machine.store.Refuses target error → ∃ after later,
    Machine.Returns host (.resumeInstruction id (pointer + 1) :: machine.pending)
      (machine.step host)
      after later (.error error)
  /-- However the resume ends, and whatever has run because of it, it is settled. -/
  settles : ∀ after later outcome,
    Machine.Returns host (.resumeInstruction id (pointer + 1) :: machine.pending)
      (machine.step host)
      after later outcome →
    machine.ResumeSettled host id (pointer + 1) below outcome (Machine.step host
      ⟨after, later, .settled outcome, .resumeInstruction id (pointer + 1) :: machine.pending⟩)

/-- When the outcome arrives, the operands are gone and everything else is as it was. There is room
for one value more, since at least one has been taken away. -/
theorem Machine.Returns.resume_settled {store after : Store} {world later : W} {outcome : Outcome}
    {arguments below taken : List Value} {pointer resumeAt : Nat} {pending : List Pending}
    (returns : Machine.Returns host (.resumeInstruction id resumeAt :: pending)
      (Machine.enter ((store.lowered id below.length).beginChildResume id target arguments) world
        (.resumeInstruction id resumeAt :: pending)) after later outcome)
    (there : store.Has id) (main : store.Has Store.main) (executing : store.access id = .executing)
    (room : (store.processor id).values.height ≤ (store.processor id).values.capacity)
    (values : (store.processor id).values.toList = below ++ taken) (some : taken ≠ []) :
    Machine.ResumeSettled host ⟨store, world, .code id pointer, pending⟩ id resumeAt below outcome
      (Machine.step host
        ⟨after, later, .settled outcome, .resumeInstruction id resumeAt :: pending⟩) := by
  have lowered := Store.coroutine_lowered there below.length
  obtain ⟨guard, waited, spared⟩ := returns.aside ((Store.has_modifyCoroutine ..).mpr there)
    ((Store.has_modifyCoroutine ..).mpr main) (by
      rw [Store.access, lowered]
      exact executing)
  rw [Store.status, lowered] at waited
  have height : below.length < (store.processor id).values.height := by
    rw [← BoundedStack.length_toList, values, List.length_append]
    have one := List.length_pos_of_ne_nil some
    omega
  have processor : after.processor id =
      { (store.processor id).lowered below.length with guard := guard } := by
    rw [Store.processor, waited]
    rfl
  have afterThere : after.Has id := by
    apply Store.has_of_executing
    rw [Store.access, waited]
    exact executing
  have afterRoom : (after.processor id).values.height < (after.processor id).values.capacity := by
    simp only [processor, Processor.lowered, BoundedStack.height_truncate,
      BoundedStack.capacity_truncate]
    omega
  obtain ⟨pushed, settlement, outside, final⟩ :=
    settlement_of_step afterThere afterRoom resumeAt outcome later pending
  rw [processor, waited] at final
  refine ⟨⟨pushed, settlement, ?_⟩, ?_, ?_, outside⟩
  · rw [Store.processor, final]
    simp [stack, Processor.lowered, values]
  · simp only [Store.processor, final]
    rfl
  · intro spares
    have same : guard = (store.processor id).guard := by
      rw [spared spares, Store.processor, lowered]
      rfl
    rw [Store.processor, final]
    exact same

/-- The instruction either begins a resume or settles it at once, by what the guard, the status and
the access of the other coroutine say. Only soundness is needed: that the resumer is executing, and
that there is room on its stack for the report where the operands have been. -/
theorem Machine.Sound.resume_reports {allowances : Allowances} {machine : Machine W} {pointer : Nat}
    {below operands : List Value} {callee : Value} (sound : machine.Sound allowances)
    (coding : machine.focus = .code id pointer)
    (found : machine.store.chunk.instruction? pointer = some (.resumeCoroutine operands.length))
    (isCoroutine : callee.collapse = .coroutine target)
    (values : (machine.store.processor id).values.toList = below ++ callee :: operands)
    (window : (machine.store.processor id).base ≤ below.length) :
    machine.ResumeReports host id pointer target below operands := by
  obtain ⟨store, world, focus, pending⟩ := machine
  obtain rfl : focus = .code id pointer := coding
  have there : store.Has id := sound.known rfl
  have executing : store.access id = .executing := sound.executing rfl
  have room := (sound.coroutines id).supplied.roomy.room
  have run := Store.execute_resumeCoroutine (pointer + 1) there values rfl window isCoroutine
  have begins : Machine.step host ⟨store, world, .code id pointer, pending⟩ = Machine.enter
      ((store.lowered id below.length).beginChildResume id target (Value.spread operands)) world
      (.resumeInstruction id (pointer + 1) :: pending) := by
    simp only [Machine.step, Machine.stepCode, found, run, Store.lowered]
  constructor
  · exact begins
  · intro error refuses
    rw [begins]
    exact ⟨_, _, returns_childResume_refused (refuses.lowered id below.length) id _ _ _⟩
  · intro after later outcome returns
    rw [begins] at returns
    exact returns.resume_settled there sound.orderly.main executing room values
      (List.cons_ne_nil _ _)

/-- The resume of an instruction is settled with one tuple or a fatal error, wherever in a run it
begins. The tuple takes the place of the operands, for which there is always room, and nothing else
of the coroutine of the instruction has changed. -/
theorem resume_settles {chunk : Chunk} {settings : Settings} {thread : ThreadId}
    {operations : List Operation} {machine : Machine W} {pointer : Nat}
    {below operands : List Value} {callee : Value}
    (reached : Machine.Reachable host (.initial chunk settings thread) operations machine)
    (coding : machine.focus = .code id pointer)
    (found : chunk.instruction? pointer = some (.resumeCoroutine operands.length))
    (isCoroutine : callee.collapse = .coroutine target)
    (values : (machine.store.processor id).values.toList = below ++ callee :: operands)
    (window : (machine.store.processor id).base ≤ below.length) :
    machine.ResumeReports host id pointer target below operands := by
  obtain ⟨sound, lasts⟩ := reachable_sound (guardsAllowed host operations) reached
  have same : machine.store.chunk = chunk := lasts.chunk
  rw [← same] at found
  exact sound.resume_reports coding found isCoroutine values window

/-! ### A coroutine that raises an error -/

/-- A main body that resumes a coroutine of a function which fails. -/
def failingChunk : Chunk where
  functions := #[⟨"main", 0, 0, false⟩, ⟨"fails", 4, 0, false⟩]
  code :=
    #[.makeClosure 1 [], .createCoroutine, .resumeCoroutine 0, .ret 1,
      .literal (.string "no"), .raise]

/-- The script where the coroutine is about to be resumed. -/
def failingMachine : Machine Unit := .sample .silent () failingChunk (.call .mainBody []) 2

/-- The resume is reported with false and the words of the error. They take the place of the
coroutine on the stack of the main body. -/
theorem error_reported :
    let waiting := Pending.resumeInstruction Store.main 3 :: failingMachine.pending
    ∃ after later, Machine.Returns .silent waiting (failingMachine.step .silent) after later
        (.error (.runtime "no")) ∧
      ((Machine.step .silent
        ⟨after, later, .settled (.error (.runtime "no")), waiting⟩).store.processor
        Store.main).values.toList =
          [.mainBody, countValue 0] ++ [.tuple [.boolean false, .string "no"]] := by
  have reached : Machine.Reachable Host.silent (.sample failingChunk) [.call .mainBody []]
      failingMachine := reachable_sample ..
  have coding : failingMachine.focus = .code Store.main 2 := by
    cbv
  have found : failingChunk.instruction? 2 =
      some (.resumeCoroutine ([] : List Value).length) := rfl
  have isCoroutine : (Value.coroutine 1).collapse = .coroutine 1 := rfl
  have values : (failingMachine.store.processor Store.main).values.toList =
      [.mainBody, countValue 0] ++ .coroutine 1 :: [] := by
    cbv
  have window : (failingMachine.store.processor Store.main).base ≤ 2 := by
    decide +kernel
  have fails :
      ((Machine.enter ((failingMachine.store.lowered Store.main 2).beginChildResume Store.main 1
      []) failingMachine.world []).run .silent 4).failure? = some (.runtime "no") := by
    decide +kernel
  generalize failingMachine = machine at *
  intro waiting
  have reports := resume_settles reached coding found isCoroutine values window
  have returns := returns_of_failure waiting _ _ fails
  rw [← enter_under _ machine.world []] at returns
  have settled := reports.settles _ _ _ (reports.begins ▸ returns)
  refine ⟨_, _, reports.begins ▸ returns, ?_⟩
  obtain ⟨pushed, settlement, left⟩ := settled.settled
  rw [left]
  generalize Machine.focus _ = focus at settlement
  cases settlement with
  | failed mild => rfl
  | fatal grave => cases grave

end CoroutineVM
