import CoroutineVM.Proofs.Machine.Soundness

/-!
# Runs of a script

A run begins with a script in which nothing has happened, and goes on with whatever its host does:
one operation after the other, each carried out step by step until the script is at rest again.
Between two operations the world of the host may have become any other, since it is none of the
script's business how. `Machine.Reachable` says of a machine that a run leads there, and which
operations it has gone through.
-/

namespace CoroutineVM

variable {W : Type} {host : Host W}

/-- The machines that a run leads to from this one, with the operations that have begun in between,
newest first. -/
inductive Machine.Leads (host : Host W) (start : Machine W) :
    List Operation → Machine W → Prop where
  | stays : Leads host start [] start
  | operates {operations : List Operation} {machine : Machine W} (operation : Operation) (world : W)
      (leads : Leads host start operations machine) (rests : machine.atRest = true) :
      Leads host start (operation :: operations)
        (Machine.enter (operation.begin machine.store) world [])
  | steps {operations : List Operation} {machine : Machine W}
      (leads : Leads host start operations machine) :
      Leads host start operations (machine.step host)

/-- A machine at rest in which nothing has happened. -/
def Machine.new (store : Store) (world : W) : Machine W :=
  ⟨store, world, .settled (.ok (.returned .nil)), []⟩

/-- The machines that a run leads to from this store, with its operations so far. -/
def Machine.Reachable (host : Host W) (start : Store) (operations : List Operation)
    (machine : Machine W) : Prop :=
  ∃ world, Leads host (.new start world) operations machine

/-! ### Stages -/

/-- What happens next in a run. -/
inductive Stage (W : Type) where
  /-- An operation begins at a machine at rest. -/
  | begins (before : Machine W) (operation : Operation)
  /-- A machine makes a step. -/
  | steps (before : Machine W)

namespace Stage

/-- The machine at which the stage begins. -/
def before : Stage W → Machine W
  | begins before _ => before
  | steps before => before

end Stage

/-- The stages through which a run leads from one machine to another, newest first. -/
inductive Machine.Traces (host : Host W) (start : Machine W) :
    List (Stage W) → Machine W → Prop where
  | stays : Traces host start [] start
  | begins {trace : List (Stage W)} {machine : Machine W} (operation : Operation) (world : W)
      (traces : Traces host start trace machine) (rests : machine.atRest = true) :
      Traces host start (.begins machine operation :: trace)
        (Machine.enter (operation.begin machine.store) world [])
  | steps {trace : List (Stage W)} {machine : Machine W}
      (traces : Traces host start trace machine) :
      Traces host start (.steps machine :: trace) (machine.step host)

namespace Stage

/-- The operation that begins at a stage. -/
def operation? : Stage W → Option Operation
  | begins _ operation => some operation
  | steps _ => none

/-- What a host function wants at a stage. -/
def request? (host : Host W) : Stage W → Option Request
  | begins _ _ => none
  | steps before => before.request? host

/-- Whether the guard of a processor is operated by hand at a stage, by the host between two
operations or by one of its functions. -/
def touchesGuard (host : Host W) : Stage W → Bool
  | begins _ operation => operation.touchesGuard
  | steps before => (before.request? host).any Request.touchesGuard

end Stage

namespace Machine.Traces

variable {start machine : Machine W} {trace : List (Stage W)}

/-- Every trace is one of a run, whose operations are those that begin at its stages. -/
theorem leads (traces : Traces host start trace machine) :
    Leads host start (trace.filterMap Stage.operation?) machine := by
  induction traces with
  | stays => exact .stays
  | begins operation world traces rests inductionHypothesis =>
    exact .operates operation world inductionHypothesis rests
  | steps traces inductionHypothesis => exact .steps inductionHypothesis

/-- Every run has a trace, so that what is shown of traces holds of runs. The stages are those
through which the run has gone, whatever else its host could have done. -/
theorem exists_of_leads {operations : List Operation}
    (leads : Leads host start operations machine) :
    ∃ trace, Traces host start trace machine ∧ trace.filterMap Stage.operation? = operations := by
  induction leads with
  | stays => exact ⟨[], .stays, rfl⟩
  | operates operation world leads rests inductionHypothesis =>
    obtain ⟨trace, traces, rfl⟩ := inductionHypothesis
    exact ⟨_, traces.begins operation world rests, rfl⟩
  | steps leads inductionHypothesis =>
    obtain ⟨trace, traces, rfl⟩ := inductionHypothesis
    exact ⟨_, traces.steps, rfl⟩

end Machine.Traces

/-! ### Soundness of runs -/

/-- The operation that is under way calls what lies on top of the stack. -/
def FromTop (operations : List Operation) : Prop :=
  ∃ operation, operations.head? = some operation ∧ operation.isCallTop = true

/-- What a host does with guards, in its functions and in its operations, is allowed. -/
structure GuardsAllowed (guards : Prop) (host : Host W) (operations : List Operation) : Prop where
  functions : ∀ id event store world,
    (host.respond id event store world).2.touchesGuard = true → guards
  operations : ∀ operation ∈ operations, operation.touchesGuard = true → guards

/-- Guards are operated by entering and leaving code, and in no other way. -/
abbrev GuardsSpared (host : Host W) (operations : List Operation) : Prop :=
  GuardsAllowed False host operations

/-- Where guards may be operated by hand, nothing is asked of the host. -/
theorem guardsAllowed (host : Host W) (operations : List Operation) :
    GuardsAllowed True host operations := ⟨fun _ _ _ _ _ => trivial, fun _ _ _ => trivial⟩

/-- What is allowed in general is allowed where a machine stands in a function of the host. -/
theorem GuardsAllowed.request {guards : Prop} {operations : List Operation} {machine : Machine W}
    {request : Request} (allowed : GuardsAllowed guards host operations)
    (wants : machine.request? host = some request) (touches : request.touchesGuard = true) :
    guards := by
  obtain ⟨store, world, focus, pending⟩ := machine
  cases focus with
  | host id event =>
    obtain rfl := Option.some.inj wants
    exact allowed.functions id event store world touches
  | code id pointer => cases wants
  | settled outcome => cases wants

/-- What is allowed in general is allowed at each stage of a run with these operations. The
condition on the stages is the weaker one: it does not speak of what the host has not been asked. -/
theorem GuardsAllowed.stage {guards : Prop} {trace : List (Stage W)} {stage : Stage W}
    (allowed : GuardsAllowed guards host (trace.filterMap Stage.operation?))
    (member : stage ∈ trace) (touches : stage.touchesGuard host = true) : guards := by
  cases stage with
  | begins before operation =>
    have begun : operation ∈ trace.filterMap Stage.operation? :=
      List.mem_filterMap.mpr ⟨_, member, rfl⟩
    exact allowed.operations operation begun touches
  | steps before =>
    obtain ⟨request, wants, touches⟩ := Option.any_eq_true _ _ |>.mp touches
    exact allowed.request wants touches

/-- Every machine of a run is sound, and its script is still the one that the run began with. Guards
are operated by hand only as far as that is allowed at the stages of the run. By induction on the
trace, with what a step and the beginning of an operation keep. -/
theorem traces_sound {chunk : Chunk} {settings : Settings} {thread : ThreadId} {world : W}
    {trace : List (Stage W)} {machine : Machine W} {guards : Prop}
    (allowed : ∀ stage ∈ trace, stage.touchesGuard host = true → guards)
    (traces : Machine.Traces host (.new (.initial chunk settings thread) world) trace machine) :
    machine.Sound ⟨guards, FromTop (trace.filterMap Stage.operation?), fun _ => True⟩ ∧
      Store.Lasts (.initial chunk settings thread) machine.store := by
  induction traces with
  | stays => exact ⟨sound_initial chunk settings thread world _, .refl _⟩
  | @begins finished _ operation world traces rests inductionHypothesis =>
    obtain ⟨now, others⟩ := List.forall_mem_cons.mp allowed
    obtain ⟨earlier, lasts⟩ := inductionHypothesis others
    have sound := earlier.resting (FromTop (operation :: finished.filterMap Stage.operation?)) rests
    have advances := sound.begin rests operation now
      (fun isCallTop => ⟨operation, rfl, isCallTop⟩) world
    exact ⟨advances.sound sound, lasts.trans advances.lasts⟩
  | steps traces inductionHypothesis =>
    obtain ⟨now, others⟩ := List.forall_mem_cons.mp allowed
    obtain ⟨sound, lasts⟩ := inductionHypothesis others
    have advances := sound.step host (fun _ _ => trivial) (fun _ _ => trivial)
      fun request wants touches => now (by simp [Stage.touchesGuard, wants, touches])
    exact ⟨advances.sound sound, lasts.trans advances.lasts⟩

/-- The same for a run that is known by its operations alone, where it is allowed to the host in
general what it does with guards. -/
theorem reachable_sound {chunk : Chunk} {settings : Settings} {thread : ThreadId}
    {operations : List Operation} {machine : Machine W} {guards : Prop}
    (allowed : GuardsAllowed guards host operations)
    (reached : Machine.Reachable host (.initial chunk settings thread) operations machine) :
    machine.Sound ⟨guards, FromTop operations, fun _ => True⟩ ∧
      Store.Lasts (.initial chunk settings thread) machine.store := by
  obtain ⟨world, leads⟩ := reached
  obtain ⟨trace, traces, rfl⟩ := Machine.Traces.exists_of_leads leads
  exact traces_sound (fun stage => allowed.stage) traces

/-- Steps carry a run on without another operation. -/
theorem Machine.Leads.run {start machine : Machine W} {operations : List Operation}
    (leads : Machine.Leads host start operations machine) (steps : Nat) :
    Machine.Leads host start operations (machine.run host steps) := by
  induction steps generalizing machine with
  | zero => exact leads
  | succ steps inductionHypothesis =>
    rw [Machine.run]
    split
    · exact leads
    · exact inductionHypothesis leads.steps

/-- A run can be gone on with where another one has led to. -/
theorem Machine.Leads.trans {start middle last : Machine W} {earlier later : List Operation}
    (first : Machine.Leads host start earlier middle)
    (second : Machine.Leads host middle later last) :
    Machine.Leads host start (later ++ earlier) last := by
  induction second with
  | stays => exact first
  | operates operation world _ rests inductionHypothesis =>
    exact .operates operation world inductionHypothesis rests
  | steps _ inductionHypothesis => exact .steps inductionHypothesis

/-- What a run leads to from a machine that is reachable is reachable. -/
theorem Machine.Reachable.leads {start : Store} {earlier later : List Operation}
    {middle last : Machine W} (reached : Machine.Reachable host start earlier middle)
    (leads : Machine.Leads host middle later last) :
    Machine.Reachable host start (later ++ earlier) last :=
  reached.imp fun _ first => first.trans leads

/-- What holds of a script in which nothing has happened and is kept by operations and steps holds
of every machine of a run. -/
theorem Machine.Reachable.induction {start : Store} (holds : Machine W → Prop)
    (new : ∀ world, holds (.new start world))
    (begins : ∀ {operations machine}, Machine.Reachable host start operations machine →
      machine.atRest = true → holds machine → ∀ (operation : Operation) (world : W),
        holds (Machine.enter (operation.begin machine.store) world []))
    (steps : ∀ {operations machine}, Machine.Reachable host start operations machine →
      holds machine → holds (machine.step host))
    {operations : List Operation} {machine : Machine W}
    (reached : Machine.Reachable host start operations machine) : holds machine := by
  obtain ⟨world, leads⟩ := reached
  induction leads with
  | stays => exact new world
  | operates operation later leads rests inductionHypothesis =>
    exact begins ⟨world, leads⟩ rests inductionHypothesis operation later
  | steps leads inductionHypothesis => exact steps ⟨world, leads⟩ inductionHypothesis

/-! ### What runs keep -/

/-- The machines that a run leads to from this one while something holds of all of them. -/
inductive Machine.LeadsWhile (host : Host W) (holds : Machine W → Prop) (start : Machine W) :
    List Operation → Machine W → Prop where
  | stays (first : holds start) : LeadsWhile host holds start [] start
  | operates {operations : List Operation} {machine : Machine W} (operation : Operation) (world : W)
      (leads : LeadsWhile host holds start operations machine) (rests : machine.atRest = true)
      (next : holds (Machine.enter (operation.begin machine.store) world [])) :
      LeadsWhile host holds start (operation :: operations)
        (Machine.enter (operation.begin machine.store) world [])
  | steps {operations : List Operation} {machine : Machine W}
      (leads : LeadsWhile host holds start operations machine) (next : holds (machine.step host)) :
      LeadsWhile host holds start operations (machine.step host)

section

variable {holds : Machine W → Prop} {start last : Machine W} {operations : List Operation}

/-- A run while something holds is a run. -/
theorem Machine.LeadsWhile.leads (leads : Machine.LeadsWhile host holds start operations last) :
    Machine.Leads host start operations last := by
  induction leads with
  | stays first => exact .stays
  | operates operation world _ rests _ inductionHypothesis =>
    exact .operates operation world inductionHypothesis rests
  | steps _ _ inductionHypothesis => exact .steps inductionHypothesis

/-- It holds of the machine that the run begins with. -/
theorem Machine.LeadsWhile.holds_first
    (leads : Machine.LeadsWhile host holds start operations last) :
    holds start := by
  induction leads with
  | stays first => exact first
  | operates _ _ _ _ _ inductionHypothesis => exact inductionHypothesis
  | steps _ _ inductionHypothesis => exact inductionHypothesis

/-- And of the one that it leads to. -/
theorem Machine.LeadsWhile.holds_last
    (leads : Machine.LeadsWhile host holds start operations last) :
    holds last := by
  cases leads with
  | stays first => exact first
  | operates _ _ _ _ next => exact next
  | steps _ next => exact next

/-- Every run is one while nothing in particular holds. -/
theorem Machine.Leads.always (leads : Machine.Leads host start operations last) :
    Machine.LeadsWhile host (fun _ => True) start operations last := by
  induction leads with
  | stays => exact .stays trivial
  | operates operation world _ rests inductionHypothesis =>
    exact .operates operation world inductionHypothesis rests trivial
  | steps _ inductionHypothesis => exact .steps inductionHypothesis trivial

/-- What is kept wherever a sound machine advances is kept for the rest of a run. The run is the
second part of one that began with a new script, which is what makes its machines sound. -/
theorem Machine.LeadsWhile.keeps {chunk : Chunk} {settings : Settings} {thread : ThreadId}
    {earlier : List Operation} (leads : Machine.LeadsWhile host holds start operations last)
    (kept : Machine W → Prop)
    (reached : Machine.Reachable host (.initial chunk settings thread) earlier start)
    (advance : ∀ {allowances before after}, before.Sound allowances →
      Advances (before.store.rules allowances) before after → holds before → holds after →
        kept before → kept after)
    (first : kept start) : kept last := by
  induction leads with
  | stays => exact first
  | operates operation world leads rests next inductionHypothesis =>
    have sound :=
      (reachable_sound (guardsAllowed host _) (reached.leads leads.leads)).1.resting True rests
    exact advance sound (sound.begin rests operation (fun _ => trivial) (fun _ => trivial) world)
      leads.holds_last next inductionHypothesis
  | steps leads next inductionHypothesis =>
    have sound := (reachable_sound (guardsAllowed host _) (reached.leads leads.leads)).1
    exact advance sound
      (sound.step host (fun _ _ => trivial) (fun _ _ => trivial) fun _ _ _ => trivial)
      leads.holds_last next inductionHypothesis

end

/-- What every move of a sound coroutine keeps is kept by any number of them. Soundness is kept
along with it, so that each move can rely on it. -/
theorem Moves.keeps {rules : Rules} {id : CoroutineId} {holds : Seen → Prop}
    (kept : ∀ {before after}, Move rules id before after → Sound rules id before → holds before →
      holds after) {before after : Seen} (moves : Moves rules id before after)
    (sound : Sound rules id before) (first : holds before) : holds after := by
  induction moves with
  | refl => exact first
  | tail moves move inductionHypothesis =>
    exact kept move (Moves.sound moves sound) inductionHypothesis

/-- What every move of a sound coroutine keeps holds for the rest of a run. -/
theorem Machine.Reachable.keeps {chunk : Chunk} {settings : Settings} {thread : ThreadId}
    {earlier later : List Operation} {middle last : Machine W} {id : CoroutineId}
    {holds : Seen → Prop}
    (reached : Machine.Reachable host (.initial chunk settings thread) earlier middle)
    (leads : Machine.Leads host middle later last)
    (kept : ∀ {rules before after}, Move rules id before after → CoroutineVM.Sound rules id before →
      holds before → holds after) (first : holds (middle.seen id)) : holds (last.seen id) :=
  leads.always.keeps (fun machine => holds (machine.seen id)) reached
    (fun sound advances _ _ => Moves.keeps kept (advances.moves id) (sound.coroutines id)) first

/-! ### Functions of the host -/

/-- The coroutine on which a function of the host begins. -/
def Focus.begins? : Focus → Option CoroutineId
  | .host id (.invoked _ _) => some id
  | .host _ _ | .code _ _ | .settled _ => none

/-- A function of the host begins with the arguments that it has been invoked with. -/
theorem host_of_begins {focus : Focus} {id : CoroutineId} (begins : focus.begins? = some id) :
    ∃ function arguments, focus = .host id (.invoked function arguments) := by
  cases focus with
  | host on event =>
    cases event with
    | invoked function arguments =>
      obtain rfl := Option.some.inj begins
      exact ⟨function, arguments, rfl⟩
    | _ => cases begins
  | code on pointer => cases begins
  | settled outcome => cases begins

/-! ### Runs of small scripts -/

/-- A host whose functions return nil at once. -/
def Host.silent : Host Unit where
  respond := fun _ _ _ world => (world, .finish (.ok .nil))
  executionEnded := fun _ _ _ world => (world, none)

/-- A new script with room for a few values. -/
def Store.sample (chunk : Chunk) : Store := .initial chunk ⟨8, 4, true, ""⟩ 0

/-- The main body of a chunk. -/
def Value.mainBody : Value := .closure ⟨0, ⟨0, []⟩⟩

/-- A new script after so many steps of its first operation. -/
def Machine.sample {W : Type} (host : Host W) (world : W) (chunk : Chunk) (operation : Operation)
    (steps : Nat) : Machine W :=
  .run host steps (.enter (operation.begin (.sample chunk)) world [])

/-- The machines of a small script are those of a run, so that what holds of runs can be tried on
them. -/
theorem reachable_sample (host : Host W) (world : W) (chunk : Chunk) (operation : Operation)
    (steps : Nat) : Machine.Reachable host (.sample chunk) [operation]
      (.sample host world chunk operation steps) :=
  ⟨world, (Machine.Leads.operates operation world .stays rfl).run steps⟩

end CoroutineVM
