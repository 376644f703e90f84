import CoroutineVM.Machine.Step
import CoroutineVM.Proofs.Store.View

/-!
# A machine seen by one of its coroutines

Those who wait for an outcome wait on a coroutine: for the end of a call of it, for the end of its
resume, for it to be woken or to be given back. The marks of a coroutine are those entries,
innermost first, and its standing says whether it is the one that the machine works on and, if so,
where.

The list of those who wait is not arbitrary. Code runs because of a call or a resume that is still
to be closed, and a host function because of code that waits for it. `Fits` states this order. It
decides who an error goes to, and that a closed call is handed to someone other than its own
coroutine.
-/

namespace CoroutineVM

/-- Someone who waits, as the coroutine sees it on which they do. -/
inductive Mark where
  /-- A call is to be closed, at these heights and with this flag. -/
  | call (valueHeight frameHeight : Nat) (mayYield : Bool)
  /-- A resume is to be closed that found the coroutine in this state. -/
  | resume (before : CoroutineStatus)
  /-- The coroutine is to be woken. -/
  | wake
  /-- The processor is to be given back. -/
  | borrow

/-- Whether code can run because of this mark. -/
def Mark.drives : Mark → Prop
  | .call _ _ _ | .resume _ => True
  | .wake | .borrow => False

/-- Code can run because of the innermost mark. -/
def Driven : List Mark → Prop
  | [] => False
  | mark :: _ => mark.drives

/-- Whoever has put the innermost mark can have a function called. -/
def Usable : List Mark → Prop
  | [] | .wake :: _ => False
  | .call _ _ _ :: _ | .resume _ :: _ | .borrow :: _ => True

/-- How many calls and resumes wait to be closed. -/
def depth : List Mark → Nat
  | [] => 0
  | .call _ _ _ :: rest | .resume _ :: rest => depth rest + 1
  | .wake :: rest | .borrow :: rest => depth rest

/-- Whoever has begun a call or a resume can have another function called there. -/
theorem Driven.usable {marks : List Mark} (driven : Driven marks) : Usable marks := by
  cases marks with
  | nil => exact driven.elim
  | cons mark rest =>
    cases mark with
    | call valueHeight frameHeight mayYield => trivial
    | resume before => trivial
    | wake => exact driven.elim
    | borrow => trivial

/-- A coroutine on which nobody waits has nothing called on it. -/
theorem Usable.ne_nil {marks : List Mark} (usable : Usable marks) : marks ≠ [] := by
  rintro rfl
  exact usable

namespace Pending

/-- The mark that someone who waits puts on a coroutine. -/
def mark? (id : CoroutineId) : Pending → Option Mark
  | .closeCall on valueHeight frameHeight mayYield _ =>
    if on = id then some (.call valueHeight frameHeight mayYield) else none
  | .closeResume target before _ => if target = id then some (.resume before) else none
  | .wake on => if on = id then some .wake else none
  | .release on => if on = id then some .borrow else none
  | .hostFunction _ _ | .resumeInstruction _ _ | .hostCall _ | .hostResume _ => none

/-- Who waits for the end of a call puts a mark on the coroutine of the call. The other three who
put one do so in the same way. -/
theorem mark_closeCall (id : CoroutineId) (valueHeight frameHeight : Nat) (mayYield : Bool)
    (stopwatch : Option Stopwatch) :
    (closeCall id valueHeight frameHeight mayYield stopwatch).mark? id =
      some (.call valueHeight frameHeight mayYield) := if_pos rfl

/-- Who waits for the end of a resume puts a mark on the coroutine that is resumed. -/
theorem mark_closeResume (id : CoroutineId) (before : CoroutineStatus)
    (stopwatch : Option Stopwatch) :
    (closeResume id before stopwatch).mark? id = some (.resume before) := if_pos rfl

/-- Who waits to be woken puts a mark on the coroutine that is to become running again. -/
theorem mark_wake (id : CoroutineId) : (wake id).mark? id = some .wake := if_pos rfl

/-- Who waits to give a coroutine back puts a mark on it. -/
theorem mark_release (id : CoroutineId) : (release id).mark? id = some .borrow := if_pos rfl

/-- The one who waits is told by the mark, apart from a stopwatch: no two kinds of those who wait
put the same mark. -/
theorem of_mark {id : CoroutineId} {waiting : Pending} {mark : Mark}
    (marked : waiting.mark? id = some mark) :
    match mark with
    | .call valueHeight frameHeight mayYield =>
      ∃ stopwatch, waiting = closeCall id valueHeight frameHeight mayYield stopwatch
    | .resume before => ∃ stopwatch, waiting = closeResume id before stopwatch
    | .wake => waiting = wake id
    | .borrow => waiting = release id := by
  have put : ∀ {on : CoroutineId} {own : Mark}, (if on = id then some own else none) = some mark →
      on = id ∧ own = mark := by
    intro on own marked
    split at marked
    next same => exact ⟨same, Option.some.inj marked⟩
    next => cases marked
  cases waiting with
  | closeCall on valueHeight frameHeight mayYield stopwatch =>
    obtain ⟨rfl, rfl⟩ := put marked
    exact ⟨stopwatch, rfl⟩
  | closeResume target before stopwatch =>
    obtain ⟨rfl, rfl⟩ := put marked
    exact ⟨stopwatch, rfl⟩
  | wake on =>
    obtain ⟨rfl, rfl⟩ := put marked
    rfl
  | release on =>
    obtain ⟨rfl, rfl⟩ := put marked
    rfl
  | _ => cases marked

/-- The coroutine whose call or resume is to be closed. -/
def closes? : Pending → Option CoroutineId
  | .closeCall on _ _ _ _ => some on
  | .closeResume target _ _ => some target
  | .hostFunction _ _ | .resumeInstruction _ _ | .hostCall _ | .hostResume _ | .wake _
  | .release _ => none

end Pending

/-- The marks of a coroutine, innermost first. -/
def marks (id : CoroutineId) (pending : List Pending) : List Mark :=
  pending.filterMap (Pending.mark? id)

/-- Where a coroutine stands. -/
inductive Standing where
  /-- Its code is about to go on at this place. -/
  | coding (pointer : Nat)
  /-- A host function runs on it. -/
  | hosting
  /-- Its call or resume has come to this outcome and is about to be closed. -/
  | ending (outcome : Outcome)
  /-- The machine is not working on it. -/
  | apart

namespace Focus

/-- The coroutine that a machine works on. An outcome belongs to the coroutine whose call or resume
is closed with it; one that is handed to someone else belongs to nobody. -/
def carrier? : Focus → List Pending → Option CoroutineId
  | .code id _, _ => some id
  | .host id _, _ => some id
  | .settled _, waiting :: _ => waiting.closes?
  | .settled _, [] => none

def standing : Focus → Standing
  | .code _ pointer => .coding pointer
  | .host _ _ => .hosting
  | .settled outcome => .ending outcome

end Focus

/-- Where this coroutine stands. -/
def standing (id : CoroutineId) (focus : Focus) (pending : List Pending) : Standing :=
  if focus.carrier? pending = some id then focus.standing else .apart

/-- What there is to see of one coroutine. -/
structure Seen where
  coroutine : Coroutine
  marks : List Mark
  standing : Standing

/-- All that can be seen of one coroutine in a machine: the coroutine, the marks of those who wait
on it, and how it stands with what is done next. -/
def Machine.seen {W : Type} (machine : Machine W) (id : CoroutineId) : Seen :=
  ⟨machine.store.coroutine id, marks id machine.pending, standing id machine.focus machine.pending⟩

/-! ### Order among those who wait -/

/-- Who must be the innermost one to wait. -/
inductive Awaited where
  /-- Whoever closes what this coroutine does. -/
  | closing (id : CoroutineId)
  /-- The code that waits for a host function on this coroutine. -/
  | function (id : CoroutineId)
  /-- Anyone who closes nothing, or nobody at all. -/
  | other

/-- Those who wait do so in an order that makes sense. -/
def Fits : Awaited → List Pending → Prop
  | .other, [] => True
  | .closing _, [] | .function _, [] => False
  | .closing id, waiting :: rest => waiting.closes? = some id ∧ Fits .other rest
  | .function id, .hostFunction on _ :: rest => on = id ∧ Fits (.closing id) rest
  | .function _, _ :: _ => False
  | .other, .hostFunction on _ :: rest | .other, .resumeInstruction on _ :: rest =>
    Fits (.closing on) rest
  | .other, .hostCall on :: rest | .other, .hostResume on :: rest => Fits (.function on) rest
  | .other, .wake _ :: rest | .other, .release _ :: rest => Fits .other rest
  | .other, .closeCall _ _ _ _ _ :: _ | .other, .closeResume _ _ _ :: _ => False

namespace Focus

/-- Those who wait fit the place where a machine stands. -/
def Suits (focus : Focus) (pending : List Pending) : Prop :=
  match focus with
  | .code id _ => Fits (.closing id) pending
  | .host id _ => Fits (.function id) pending
  | .settled _ => Fits .other pending ∨ ∃ id, Fits (.closing id) pending

end Focus

/-- Those who wait are in order, and all of them wait on coroutines that there are. -/
structure Orderly {W : Type} (machine : Machine W) : Prop where
  suits : machine.focus.Suits machine.pending
  known : ∀ id, marks id machine.pending ≠ [] → machine.store.Has id
  main : machine.store.Has Store.main

/-- Nobody who waits, no marks. -/
@[simp]
theorem marks_nil (id : CoroutineId) : marks id [] = [] := rfl

/-- The marks of an inner list of those who wait come before those of an outer one. -/
@[simp]
theorem marks_append (id : CoroutineId) (inner outer : List Pending) :
    marks id (inner ++ outer) = marks id inner ++ marks id outer :=
  List.filterMap_append

/-- One who waits puts at most one mark on a coroutine, and it is the innermost. -/
theorem marks_cons (id : CoroutineId) (waiting : Pending) (rest : List Pending) :
    marks id (waiting :: rest) = (waiting.mark? id).toList ++ marks id rest := by
  rw [marks, List.filterMap_cons]
  cases waiting.mark? id <;> rfl

/-- Whoever closes what a coroutine does has put a mark on it because of which code can run. -/
theorem driven_of_closing {id : CoroutineId} {pending : List Pending}
    (fits : Fits (.closing id) pending) : Driven (marks id pending) := by
  cases pending with
  | nil => exact fits.elim
  | cons waiting rest =>
    obtain ⟨closes, _⟩ := fits
    cases waiting <;> cases closes <;> simp [marks_cons, Pending.mark?, Driven, Mark.drives]

/-- So has the code that waits for a host function: whoever closes that code comes right after
it. -/
theorem driven_of_function {id : CoroutineId} {pending : List Pending}
    (fits : Fits (.function id) pending) : Driven (marks id pending) := by
  cases pending with
  | nil => exact fits.elim
  | cons waiting rest =>
    cases waiting with
    | hostFunction on resumeAt =>
      obtain ⟨rfl, closing⟩ := fits
      simpa [marks_cons, Pending.mark?] using driven_of_closing closing
    | _ => exact fits.elim

/-- A coroutine whose code can run has someone waiting on it. -/
theorem Driven.ne_nil {marks : List Mark} (driven : Driven marks) : marks ≠ [] := by
  rintro rfl
  exact driven

/-- An outcome that nobody closes belongs to nobody. -/
theorem carrier_of_other {outcome : Outcome} {pending : List Pending}
    (fits : Fits .other pending) : (Focus.settled outcome).carrier? pending = none := by
  cases pending with
  | nil => rfl
  | cons waiting rest =>
    cases waiting with
    | closeCall on valueHeight frameHeight mayYield stopwatch => exact fits.elim
    | closeResume target before stopwatch => exact fits.elim
    | _ => rfl

/-- Someone who closes nothing does not wait for what a coroutine does. So an outcome that has come
to such a one has left its coroutine. -/
theorem fits_other_of_closes {waiting : Pending} {rest : List Pending}
    (closes : waiting.closes? = none)
    (fits : Fits .other (waiting :: rest) ∨ ∃ id, Fits (.closing id) (waiting :: rest)) :
    Fits .other (waiting :: rest) := by
  obtain fits | ⟨id, closing⟩ := fits
  · exact fits
  · cases closes.symm.trans closing.1

/-- An outcome that someone closes belongs to the coroutine whose call or resume is closed. -/
theorem carrier_of_closing {id : CoroutineId} {outcome : Outcome} {pending : List Pending}
    (fits : Fits (.closing id) pending) :
    (Focus.settled outcome).carrier? pending = some id := by
  cases pending with
  | nil => exact fits.elim
  | cons waiting rest => exact fits.1

end CoroutineVM
