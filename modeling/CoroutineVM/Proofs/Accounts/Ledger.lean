import Mathlib.Logic.Function.Basic
import CoroutineVM.Proofs.Machine.Entries
import CoroutineVM.Proofs.Machine.Traces

/-!
# The books of a run

Suppose somebody kept books of a run: wrote down every call and every resume that is let in, closed
the innermost entry when it has ended, whichever way, and began a new page at each reset. The books
are a function of the stages of the run alone and know neither counters nor debuggers.
`Machine.Balanced` says that a machine is in agreement with them: its counters show what is on the
page, its debugger has been told of the entries of processors in which nothing was under way, and
those who wait to close something are the entries that are still open.
-/

namespace CoroutineVM

variable {W : Type}

/-- A call or a resume that was let in: what it counts as, its processor, and how deep the guard of
this one was nested before. -/
structure Entry where
  counter : Counter
  on : CoroutineId
  nesting : Nat
  deriving DecidableEq, Repr

/-- Nothing was under way on the processor. -/
def Entry.outermost (entry : Entry) : Bool := entry.nesting == 0

/-- What is written down of a stage. -/
inductive Happening where
  /-- A call or a resume is let in. -/
  | admits (entry : Entry)
  /-- The innermost of those that are under way ends. -/
  | finishes
  /-- The counters are reset. -/
  | resets
  /-- Something else, be it a call or a resume that is turned away. -/
  | other
  deriving DecidableEq, Repr

/-- The books of a run, as far as they have been kept. -/
structure Ledger where
  /-- The entries that have not ended yet, innermost first. -/
  underway : List Entry
  /-- All that have ended, newest first. -/
  finished : List Entry
  /-- Those that have ended since the last reset, newest first. -/
  counted : List Entry

namespace Ledger

/-- Books in which nothing has been written yet. -/
def blank : Ledger := ⟨[], [], []⟩

/-- Writes down what has happened. Whoever ends is the innermost one that is underway, and a reset
begins a new page but leaves open what is open. -/
def note (ledger : Ledger) : Happening → Ledger
  | .admits entry => { ledger with underway := entry :: ledger.underway }
  | .finishes =>
    match ledger.underway with
    | [] => ledger
    | entry :: outer => ⟨outer, entry :: ledger.finished, entry :: ledger.counted⟩
  | .resets => { ledger with counted := [] }
  | .other => ledger

/-- How many of those that have ended since the last reset are counted so. -/
def count (ledger : Ledger) (counter : Counter) : Nat :=
  ledger.counted.countP (·.counter == counter)

/-- The processors whose outermost entries have ended, newest first. -/
def signals (ledger : Ledger) : List CoroutineId :=
  (ledger.finished.filter Entry.outermost).map Entry.on

end Ledger

/-! ### What happens at a stage -/

namespace Store

/-- How often the guard of a processor has been entered and not been left. -/
def nesting (store : Store) (id : CoroutineId) : Nat := (store.processor id).guard.nesting

/-- A call is let in if the guard lets the thread in. -/
def calls (id : CoroutineId) (store : Store) : Happening :=
  match store.passGuard id with
  | .ok _ => .admits ⟨.execution, id, store.nesting id⟩
  | .error _ => .other

/-- A call through the handle of the script's own processor has to find it free. -/
def callsMain (store : Store) : Happening :=
  if store.access main = .free then store.calls main else .other

/-- A resume is let in if the coroutine can be resumed, its processor is free, and the guard lets
the thread in. -/
def resumes (target : CoroutineId) (store : Store) : Happening :=
  if (store.status target).isResumable = true ∧ store.access target = .free then
    match store.passGuard target with
    | .ok _ => .admits ⟨.resume, target, store.nesting target⟩
    | .error _ => .other
  else .other

/-- An instruction lets nobody in but a coroutine that it resumes. -/
def executes (id : CoroutineId) (pointer : Nat) (store : Store) : Happening :=
  match store.chunk.instruction? pointer with
  | none => .other
  | some instruction =>
    match execute id instruction (pointer + 1) store with
    | (.ok (.resume target _ _), after) => after.resumes target
    | _ => .other

end Store

/-- A change by hand is written down only if it resets the counters. -/
def Edit.happening : Edit → Happening
  | .resetCounters => .resets
  | _ => .other

/-- What a request of a host function comes to in the books. -/
def Request.happening (id : CoroutineId) (store : Store) : Request → Happening
  | .call _ _ => store.calls id
  | .callScript _ _ => store.callsMain
  | .resume target _ | .resumeHandle target _ => store.resumes target
  | .resetCounters => .resets
  | .edit change => change.happening
  | .finish _ | .create _ | .setGlobal _ _ | .enterGuard _ | .attach _ => .other

/-- What an operation from outside comes to in the books. -/
def Operation.happening (store : Store) : Operation → Happening
  | .call _ _ | .callTop _ => store.callsMain
  | .resume target _ => store.resumes target
  | .edit change => change.happening
  | .push _ | .create _ => .other

/-- What the next step of a machine comes to in the books. -/
def Machine.happening (host : Host W) (machine : Machine W) : Happening :=
  match machine.focus, machine.pending with
  | .code id pointer, _ => machine.store.executes id pointer
  | .host id event, _ =>
    (host.respond id event machine.store machine.world).2.happening id machine.store
  | .settled _, waiting :: _ => if waiting.closes?.isSome then .finishes else .other
  | .settled _, [] => .other

/-- What a stage of a run comes to in the books. -/
def Stage.happening (host : Host W) : Stage W → Happening
  | begins before operation => operation.happening before.store
  | steps before => before.happening host

/-- The books of a run. -/
def ledger (host : Host W) : List (Stage W) → Ledger
  | [] => .blank
  | stage :: earlier => (ledger host earlier).note (stage.happening host)

/-- The entry that is let in at a stage. -/
def Happening.admitted? : Happening → Option Entry
  | .admits entry => some entry
  | .finishes | .resets | .other => none

/-- Whoever was let in either has ended, and once only, or is under way. The books move an entry
from the one list to the other and never copy it, and a reset takes none away. -/
theorem ledger_perm (host : Host W) (trace : List (Stage W)) :
    (trace.filterMap fun stage => (stage.happening host).admitted?).Perm
      ((ledger host trace).underway ++ (ledger host trace).finished) := by
  induction trace with
  | nil => exact .refl _
  | cons stage earlier inductionHypothesis =>
    rw [List.filterMap_cons, ledger]
    cases stage.happening host with
    | admits entry => exact inductionHypothesis.cons entry
    | resets => exact inductionHypothesis
    | other => exact inductionHypothesis
    | finishes =>
      simp only [Happening.admitted?, Ledger.note]
      split
      next none => exact inductionHypothesis
      next entry outer some =>
        rw [some] at inductionHypothesis
        exact inductionHypothesis.trans List.perm_middle.symm

/-! ### Books and machines -/

/-- Stopping a watch counts once, for the counter that it was taken for and for no other. -/
theorem count_stop (counters : Counters) (stopped counter : Counter) :
    (counters.stop ⟨stopped⟩).count counter =
      counters.count counter + if stopped = counter then 1 else 0 := by
  cases stopped <;> cases counter <;> rfl

/-- Whether there is counting is not decided by what is counted. -/
theorem enabled_stop (counters : Counters) (stopwatch : Stopwatch) :
    (counters.stop stopwatch).enabled = counters.enabled := by
  obtain ⟨counter⟩ := stopwatch
  cases counter <;> rfl

/-- The stopwatch that somebody who waits will stop, and the processor whose guard will be left. -/
def Pending.timer? : Pending → Option (Option Stopwatch × CoroutineId)
  | .closeCall id _ _ _ stopwatch => some (stopwatch, id)
  | .closeResume target _ stopwatch => some (stopwatch, target)
  | _ => none

/-- The stopwatches of those who wait to close an entry, with their coroutines. -/
def timers (pending : List Pending) : List (Option Stopwatch × CoroutineId) :=
  pending.filterMap Pending.timer?

/-- The guards are nested as the entries that are under way found them, and once more by each of
these. -/
def Levels (nesting : CoroutineId → Nat) : List Entry → Prop
  | [] => True
  | entry :: outer =>
    nesting entry.on = entry.nesting + 1 ∧
      Levels (Function.update nesting entry.on entry.nesting) outer

namespace Machine

/-- What becomes of counters, guards, those who close something and the debugger's notes when this
happens. -/
inductive Happens (told : W → List CoroutineId) (before after : Machine W) : Happening → Prop where
  | admits (entry : Entry) (nested : before.store.nesting entry.on = entry.nesting)
      (nesting : after.store.nesting = Function.update before.store.nesting entry.on
        (entry.nesting + 1))
      (counters : after.store.counters = before.store.counters)
      (opened : timers after.pending =
        (before.store.counters.start? entry.counter, entry.on) :: timers before.pending)
      (notes : told after.world = told before.world) : Happens told before after (.admits entry)
  | finishes (stopwatch : Option Stopwatch) (id : CoroutineId)
      (closed : timers before.pending = (stopwatch, id) :: timers after.pending)
      (counters : after.store.counters = (stopWatch stopwatch before.store).counters)
      (left : ∀ outer, before.store.nesting id = outer + 1 →
        after.store.nesting = Function.update before.store.nesting id outer ∧
          told after.world = if outer = 0 then id :: told before.world else told before.world) :
      Happens told before after .finishes
  | resets (nesting : after.store.nesting = before.store.nesting)
      (counters : after.store.counters = before.store.counters.reset)
      (same : timers after.pending = timers before.pending)
      (notes : told after.world = told before.world) : Happens told before after .resets
  | other (nesting : timers before.pending ≠ [] → after.store.nesting = before.store.nesting)
      (counters : after.store.counters = before.store.counters)
      (same : timers after.pending = timers before.pending)
      (notes : told after.world = told before.world) : Happens told before after .other

/-- A machine and the books agree. What the debugger has noted before these were begun is left
aside. -/
structure Balanced (told : W → List CoroutineId) (older : List CoroutineId) (books : Ledger)
    (machine : Machine W) : Prop where
  counting : machine.store.counters.enabled = true
  counts : ∀ counter, machine.store.counters.count counter = books.count counter
  signals : told machine.world = books.signals ++ older
  timed : timers machine.pending = books.underway.map fun entry => (some ⟨entry.counter⟩, entry.on)
  levels : Levels machine.store.nesting books.underway

variable {told : W → List CoroutineId} {older : List CoroutineId} {books : Ledger}
  {before after : Machine W} {happening : Happening}

/-- Each happening keeps machine and books in agreement. The only delicate one is an end: the entry
that is closed is the innermost one of the books, and it tells the debugger exactly if the guard
finds no other entry around it, which is what the levels say. -/
theorem Balanced.happens (balanced : Balanced told older books before)
    (happens : Happens told before after happening) :
    Balanced told older (books.note happening) after := by
  obtain ⟨counting, counts, signals, timed, levels⟩ := balanced
  cases happens with
  | admits entry nested nesting counters opened notes =>
    refine ⟨counters ▸ counting, counters ▸ counts, notes.trans signals, ?_, ?_, ?_⟩
    · rw [opened, timed, Counters.start?, if_pos counting]
      rfl
    · rw [nesting, Function.update_self]
    · -- Those outside of the new entry find the guard as it was before it.
      rw [nesting, Function.update_idem, ← nested, Function.update_eq_self]
      exact levels
  | resets nesting counters same notes =>
    refine ⟨?_, ?_, notes.trans signals, same.trans timed, nesting ▸ levels⟩
    · rw [counters]
      exact counting
    · rw [counters]
      intro counter
      cases counter <;> rfl
  | other nesting counters same notes =>
    refine ⟨counters ▸ counting, counters ▸ counts, notes.trans signals, same.trans timed, ?_⟩
    simp only [Ledger.note]
    cases entries : books.underway with
    | nil =>
      -- The host may have operated a guard, but nobody is inside to mind.
      trivial
    | cons entry outer =>
      have busy : timers before.pending ≠ [] := by simp [timed, entries]
      rw [nesting busy, ← entries]
      exact levels
  | finishes stopwatch id closed counters left =>
    rw [closed] at timed
    cases entries : books.underway with
    | nil =>
      -- Somebody has waited to close, so the books have somebody under way.
      rw [entries] at timed
      cases timed
    | cons entry outer =>
      rw [entries, List.map_cons, List.cons.injEq, Prod.mk.injEq] at timed
      obtain ⟨⟨rfl, rfl⟩, rest⟩ := timed
      rw [entries] at levels
      obtain ⟨nested, outerLevels⟩ := levels
      obtain ⟨nesting, notes⟩ := left _ nested
      simp only [Ledger.note, entries]
      constructor
      case counting =>
        rw [counters]
        exact (enabled_stop _ _).trans counting
      case counts =>
        intro counter
        rw [counters, stopWatch, count_stop, counts, Ledger.count, Ledger.count, List.countP_cons]
        simp only [beq_iff_eq]
      case signals =>
        rw [notes, signals, Ledger.signals, Ledger.signals, List.filter_cons]
        simp only [Entry.outermost, beq_iff_eq]
        split <;> rfl
      case timed => exact rest
      case levels => exact nesting ▸ outerLevels

end Machine

end CoroutineVM
