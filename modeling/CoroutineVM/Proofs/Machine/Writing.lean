import CoroutineVM.Proofs.Machine.Traces
import CoroutineVM.Proofs.Store.Writing

/-!
# What steps write besides stacks

A step holds to a lenient relation unless it carries out one of the two instructions that write, or
a change that the host asks for. Whatever is entered or closed on the way does not matter.
-/

namespace CoroutineVM

open Store

variable {W : Type} {host : Host W}

/-- The change that a host function asks for. -/
def Request.change? : Request → Option Edit
  | .setGlobal name value => some (.setEntry Store.globals name value)
  | .attach debugger => some (.attach debugger)
  | .resetCounters => some .resetCounters
  | .edit change => some change
  | _ => none

/-- The change that the host makes at a stage. -/
def Stage.change? (host : Host W) : Stage W → Option Edit
  | begins _ operation => operation.edit?
  | steps before => (before.request? host).bind Request.change?

/-- Cells are written to in one way only: the other requests that change something write
elsewhere. -/
theorem Stage.edit?_of_writeCell {stage : Stage W} {cell : CellId} {value : Value}
    (asked : stage.change? host = some (.writeCell cell value)) :
    stage.edit? host = some (.writeCell cell value) := by
  cases stage with
  | begins before operation => exact asked
  | steps before =>
    obtain ⟨request, wanted, asked⟩ := Option.bind_eq_some_iff.mp asked
    rw [edit?, wanted, Option.bind_some]
    cases request <;> cases asked
    rfl

namespace Machine

variable {relation : Store → Store → Prop} (lenient : Lenient relation) {store : Store} {world : W}
  {pending : List Pending} {id : CoroutineId}
include lenient

/-- One instruction is carried out, and only the two that write are asked about: with the names and
values that they have here. -/
theorem relates_stepCode {pointer : Nat}
    (global : ∀ name, store.chunk.instruction? pointer = some (.storeGlobal name) → ∀ value between,
      relation between (between.setGlobal name value))
    (upvalue : ∀ index, store.chunk.instruction? pointer = some (.storeUpvalue index) →
      ∀ cell value between, relation between (between.writeCell cell value)) :
    relation store (stepCode id pointer store world pending).store := by
  unfold stepCode
  split
  next => exact lenient.refl store
  next instruction fetched =>
    have respects : relation store (Store.execute id instruction (pointer + 1) store).2 :=
      respects_execute lenient instruction (pointer + 1)
        (fun name same => global name (same ▸ fetched))
        (fun index same => upvalue index (same ▸ fetched)) store
    split <;> rename_i run <;> rw [run] at respects
    · exact respects
    · exact respects
    · exact respects
    · exact respects
    · exact respects
    · exact lenient.trans respects (relates_beginChildResume lenient ..)

/-- A request that is a change may write, and the others begin an entry or look at something. So a
relation that entries keep is kept by any request but a change. -/
theorem relates_stepRequest {request : Request}
    (changes : ∀ change, request.change? = some change → change.writes = true →
      relation store (store.edit change)) :
    relation store (stepRequest id request store world pending).store := by
  have edits : ∀ change, request.change? = some change → relation store (store.edit change) :=
    fun change asked => relates_edit lenient store change (changes change asked)
  cases request with
  | call callee arguments => exact relates_beginCall lenient ..
  | resume target arguments => exact relates_beginChildResume lenient ..
  | create function => exact respects_spawn lenient id function store
  | callScript callee arguments =>
    exact relates_borrowing lenient Store.main (fun _ => relates_beginCall lenient ..) store
  | resumeHandle target arguments => exact relates_beginResume lenient ..
  | enterGuard thread =>
    rw [stepRequest]
    split
    · exact lenient.same rfl rfl rfl
    · exact lenient.refl store
  | finish outcome => exact lenient.refl store
  | setGlobal name value => exact edits _ rfl
  | attach debugger => exact edits _ rfl
  | resetCounters => exact edits _ rfl
  | edit change => exact edits _ rfl

/-- Leaving a guard tells the debugger and counts, neither of which is noticed. -/
theorem relates_leaveGuard (host : Host W) (id : CoroutineId) (stopwatch : Option Stopwatch)
    (store : Store) (world : W) :
    relation store (leaveGuard host id (stopWatch stopwatch store) world).1 := by
  cases stopwatch <;> simp only [leaveGuard, stopWatch] <;> split <;> exact lenient.same rfl rfl rfl

/-- A result is pushed on a stack. -/
theorem relates_pushResult (resumeAt : Nat) (value : Value) :
    relation store (pushResult id resumeAt value store world pending).store := by
  have respects : relation store (onProcessor id (Processor.push value) store).2 :=
    respects_onProcessor lenient _ store
  unfold pushResult
  split <;> rename_i run <;> rw [run] at respects <;> exact respects

/-- Closing and handing on change coroutines, counters and guards. A relation that does not look at
these is kept, whoever is handed the outcome. -/
theorem relates_stepSettled (host : Host W) (outcome : Outcome) (waiting : Pending) :
    relation store (stepSettled host outcome waiting store world pending).store := by
  cases waiting with
  | hostFunction on resumeAt =>
    cases outcome with
    | ok exit => exact relates_pushResult lenient ..
    | error error => exact lenient.refl store
  | resumeInstruction on resumeAt =>
    cases outcome with
    | ok exit => exact relates_pushResult lenient ..
    | error error =>
      simp only [stepSettled]
      split
      · exact lenient.refl store
      · exact relates_pushResult lenient ..
  | closeCall on valueHeight frameHeight mayYield stopwatch =>
    have restored : relation store
        (store.modifyProcessor on (Processor.restore valueHeight frameHeight mayYield)) :=
      lenient.same rfl rfl rfl
    exact lenient.trans restored (relates_leaveGuard lenient host on stopwatch _ world)
  | closeResume target before stopwatch =>
    have stopped : relation store (store.modifyProcessor target (processorAfter outcome)) :=
      lenient.same rfl rfl rfl
    have left := relates_leaveGuard lenient host target stopwatch
      (store.modifyProcessor target (processorAfter outcome)) world
    exact lenient.trans (lenient.trans stopped left) (lenient.same rfl rfl rfl)
  | _ => exact lenient.same rfl rfl rfl

/-- What a step does besides writing does not matter. So a step is looked at only where it is one of
the two instructions or a change. -/
theorem relates_step (host : Host W) (machine : Machine W)
    (global : ∀ id pointer name, machine.focus = .code id pointer →
      machine.store.chunk.instruction? pointer = some (.storeGlobal name) →
      ∀ value between, relation between (between.setGlobal name value))
    (upvalue : ∀ id pointer index, machine.focus = .code id pointer →
      machine.store.chunk.instruction? pointer = some (.storeUpvalue index) →
      ∀ cell value between, relation between (between.writeCell cell value))
    (changes : ∀ change, (Stage.steps machine).change? host = some change → change.writes = true →
      relation machine.store (machine.store.edit change)) :
    relation machine.store (machine.step host).store := by
  obtain ⟨store, world, focus, pending⟩ := machine
  cases focus with
  | code id pointer =>
    exact relates_stepCode lenient (fun name => global id pointer name rfl)
      fun index => upvalue id pointer index rfl
  | host id event => exact relates_stepRequest lenient changes
  | settled outcome =>
    cases pending with
    | nil => exact lenient.refl store
    | cons waiting pending => exact relates_stepSettled lenient host outcome waiting

/-- An operation writes only if it is a change that does. The others begin an entry, or put a value
on the script's own stack. -/
theorem relates_begin (host : Host W) (machine : Machine W) (operation : Operation) (world : W)
    (changes : ∀ change, (Stage.begins machine operation).change? host = some change →
      change.writes = true → relation machine.store (machine.store.edit change)) :
    relation machine.store (enter (operation.begin machine.store) world []).store := by
  cases operation with
  | call callee arguments =>
    exact relates_borrowing lenient Store.main (fun _ => relates_beginCall lenient ..) _
  | callTop arguments =>
    exact relates_borrowing lenient Store.main (fun _ => relates_beginCall lenient ..) _
  | push value =>
    exact relates_borrowing lenient Store.main
      (fun before => respects_onProcessor lenient (Processor.push value) before) _
  | resume target arguments => exact relates_beginResume lenient ..
  | create function => exact respects_spawn lenient Store.main function.collapse machine.store
  | edit change => exact relates_edit lenient machine.store change (changes change rfl)

end Machine

end CoroutineVM
