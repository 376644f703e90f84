import CoroutineVM.Proofs.Machine.Runs

/-!
# What has happened in a run

`Machine.Reachable` says where a run leads and which operations it has gone through. A trace lists
every stage of the run with the machine that the stage began at, so that one can speak about all
that the host has supplied and about all that the code has done. What is asked of a host is asked of
the stages of a trace: a condition on all that it could ever answer would rule out a host that only
hands on what it is told.
-/

namespace CoroutineVM

variable {W : Type} {host : Host W}

namespace Machine.Traces

variable {start machine : Machine W} {trace : List (Stage W)}

/-- What holds of all machines of a trace holds while the run goes on. -/
theorem leadsWhile {holds : Machine W → Prop} (traces : Traces host start trace machine)
    (stages : ∀ stage ∈ trace, holds stage.before) (last : holds machine) :
    LeadsWhile host holds start (trace.filterMap Stage.operation?) machine := by
  induction traces with
  | stays => exact .stays last
  | begins operation world traces rests inductionHypothesis =>
    obtain ⟨first, others⟩ := List.forall_mem_cons.mp stages
    exact .operates operation world (inductionHypothesis others first) rests last
  | steps traces inductionHypothesis =>
    obtain ⟨first, others⟩ := List.forall_mem_cons.mp stages
    exact .steps (inductionHypothesis others first) last

/-- The machines of a trace are those of shorter traces: each of its stages began at a machine to
which the stages before it lead. -/
theorem earlier {later earlier : List (Stage W)} {stage : Stage W}
    (traces : Traces host start (later ++ stage :: earlier) machine) :
    Traces host start earlier stage.before := by
  induction later generalizing machine with
  | nil =>
    cases traces with
    | begins operation world traces rests => exact traces
    | steps traces => exact traces
  | cons last later inductionHypothesis =>
    cases traces with
    | begins operation world traces rests => exact inductionHypothesis traces
    | steps traces => exact inductionHypothesis traces

end Machine.Traces

/-! ### What the host supplies -/

/-- The values that are put somewhere. -/
def Edit.values : Edit → List Value
  | .setEntry _ _ value => [value]
  | .createCell value => [value]
  | .writeCell _ value => [value]
  | _ => []

/-- The value that is put into a cell. -/
def Edit.cellValue? : Edit → Option Value
  | .createCell value => some value
  | .writeCell _ value => some value
  | _ => none

namespace Request

/-- The values that come with a request. -/
def values : Request → List Value
  | .finish (.ok value) => [value]
  | .call callee arguments => callee :: arguments
  | .resume _ arguments => arguments
  | .create function => [function]
  | .setGlobal _ value => [value]
  | .callScript callee arguments => callee :: arguments
  | .resumeHandle _ arguments => arguments
  | .edit change => change.values
  | _ => []

/-- The value that is put on a stack as it is: the result of a host function. -/
def placed? : Request → Option Value
  | .finish (.ok value) => some value
  | _ => none

/-- The error of a host function that fails. -/
def error? : Request → Option ScriptError
  | .finish (.error error) => some error
  | _ => none

/-- The change that is made to something that the host holds. -/
def edit? : Request → Option Edit
  | .edit change => some change
  | _ => none

end Request

namespace Operation

/-- The values that come with an operation. -/
def values : Operation → List Value
  | .call callee arguments => callee :: arguments
  | .callTop arguments => arguments
  | .push value => [value]
  | .resume _ arguments => arguments
  | .create function => [function]
  | .edit change => change.values

/-- The value that is put on a stack as it is. -/
def placed? : Operation → Option Value
  | .push value => some value
  | _ => none

/-- The change that is made to something that the host holds. -/
def edit? : Operation → Option Edit
  | .edit change => some change
  | _ => none

end Operation

namespace HostEvent

/-- The values that a host function is told. -/
def values : HostEvent → List Value
  | .invoked _ arguments => arguments
  | .called (.ok value) => [value]
  | .resumed (.ok given) => [given.value]
  | _ => []

/-- The error that a host function is told. -/
def error? : HostEvent → Option ScriptError
  | .called (.error error) => some error
  | .resumed (.error error) => some error
  | .created (.error error) => some error
  | .entered (.error error) => some error
  | _ => none

end HostEvent

namespace Stage

/-- The values that the host supplies at a stage. -/
def values (host : Host W) : Stage W → List Value
  | begins _ operation => operation.values
  | steps before => ((before.request? host).map Request.values).getD []

/-- The change that the host makes at a stage to something that it holds. -/
def edit? (host : Host W) : Stage W → Option Edit
  | begins _ operation => operation.edit?
  | steps before => (before.request? host).bind Request.edit?

/-- The error that a host function fails with at a stage. -/
def error? (host : Host W) : Stage W → Option ScriptError
  | begins _ _ => none
  | steps before => (before.request? host).bind Request.error?

/-- The value that the host puts on a stack as it is: the result of a host function, or what it
pushes. -/
def placed? (host : Host W) : Stage W → Option Value
  | begins _ operation => operation.placed?
  | steps before => (before.request? host).bind Request.placed?

/-- The error that a host function is told at a stage. -/
def told? : Stage W → Option ScriptError
  | begins _ _ => none
  | steps before =>
    match before.focus with
    | .host _ event => event.error?
    | _ => none

/-- Errors of this kind come from the script alone: a host function that fails with one hands on
what a host function has been told at that stage or before. Nothing is asked of stages that the run
does not go through, so a host may hand on whatever it is told. -/
def Relays (kind : ScriptError → Prop) (host : Host W) (trace : List (Stage W)) : Prop :=
  ∀ later stage earlier, trace = later ++ stage :: earlier → ∀ error, kind error →
    stage.error? host = some error → ∃ other ∈ stage :: earlier, other.told? = some error

/-- What has been said of a trace has been said of each earlier part of it, so that it can be
carried along an induction on the trace. -/
theorem Relays.earlier {kind : ScriptError → Prop} {stage : Stage W} {trace : List (Stage W)}
    (relays : Relays kind host (stage :: trace)) : Relays kind host trace :=
  fun later _ before split => relays (stage :: later) _ before (congrArg (stage :: ·) split)

/-- Where nobody has been told of an error of this kind, nobody fails with one either: a host
function could only hand on what it has been told. -/
theorem Relays.error {kind : ScriptError → Prop} {stage : Stage W} {trace : List (Stage W)}
    (relays : Relays kind host (stage :: trace))
    (untold : ∀ other ∈ stage :: trace, ∀ error, other.told? = some error → ¬ kind error)
    {error : ScriptError} (fails : stage.error? host = some error) : ¬ kind error := by
  intro about
  obtain ⟨other, member, told⟩ := relays [] stage trace rfl error about fails
  exact untold other member error told about

/-- What the host puts on a stack is among the values that it supplies. -/
theorem mem_of_placed {stage : Stage W} {value : Value} (placed : stage.placed? host = some value) :
    value ∈ stage.values host := by
  cases stage with
  | begins before operation =>
    cases operation <;> cases placed
    exact List.mem_singleton_self _
  | steps before =>
    obtain ⟨request, wanted, result⟩ := Option.bind_eq_some_iff.mp placed
    simp only [values, wanted, Option.map_some, Option.getD_some]
    unfold Request.placed? at result
    split at result
    · cases result
      exact List.mem_singleton_self _
    · cases result

/-- So is what it puts into a cell. -/
theorem Edit.mem_of_cell {change : Edit} {value : Value} (cell : change.cellValue? = some value) :
    value ∈ change.values := by
  cases change <;> cases cell
  · exact List.mem_singleton_self _
  · exact List.mem_singleton_self _

/-- The same at a stage of a run. -/
theorem mem_of_cell {stage : Stage W} {value : Value}
    (cell : (stage.edit? host).bind Edit.cellValue? = some value) : value ∈ stage.values host := by
  obtain ⟨change, edits, cell⟩ := Option.bind_eq_some_iff.mp cell
  have member := Edit.mem_of_cell cell
  cases stage with
  | begins before operation =>
    cases operation <;> cases edits
    exact member
  | steps before =>
    obtain ⟨request, wanted, edits⟩ := Option.bind_eq_some_iff.mp edits
    simp only [values, wanted, Option.map_some, Option.getD_some]
    cases request <;> cases edits
    exact member

/-- Host functions that return nil at once supply nothing else. -/
theorem silent_steps (before : Machine Unit) :
    (∀ value ∈ (steps before).values Host.silent, value = .nil) ∧
      (steps before).edit? Host.silent = none ∧ (steps before).error? Host.silent = none := by
  obtain ⟨store, world, focus, pending⟩ := before
  cases focus with
  | host id event => exact ⟨fun value member => List.mem_singleton.mp member, rfl, rfl⟩
  | code id pointer => exact ⟨(fun value member => by cases member), rfl, rfl⟩
  | settled outcome => exact ⟨(fun value member => by cases member), rfl, rfl⟩

end Stage

end CoroutineVM
