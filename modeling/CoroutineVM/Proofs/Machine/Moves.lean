import CoroutineVM.Proofs.Machine.Marks
import CoroutineVM.Proofs.Store.Instructions
import Mathlib.Logic.Relation

/-!
# What can happen to one coroutine

A step of a machine concerns few coroutines, and what it does to one of them is one of the moves
listed here, or a few of them in a row. What holds of a coroutine after every move holds of it in
every run, so that an invariant of single coroutines needs a case for each move and not for each way
in which a machine can come to make it.

`Inner` lists the moves of a coroutine that has been entered, and `Move` adds those by which it is
entered and left as a whole. Each says what it starts from and what it leads to; whether a coroutine
can get there at all is a matter of invariants.
-/

namespace CoroutineVM

open Processor Relation

/-- What the host of a script may do. -/
structure Allowances where
  /-- Whether guards are operated by hand. -/
  guards : Prop
  /-- Whether the callee is taken from the top of the script's own stack. -/
  fromTop : Prop
  /-- The errors that may come to a coroutine from outside of its code. -/
  errors : ScriptError → Prop

/-- What moves depend on besides the coroutine. -/
structure Rules extends Allowances where
  chunk : Chunk
  settings : Settings
  thread : ThreadId

/-- The rules that a store lays down. -/
def Store.rules (store : Store) (allowances : Allowances) : Rules :=
  ⟨allowances, store.chunk, store.settings, store.thread⟩

/-- The rules do not change for as long as a script lives. -/
theorem Store.Lasts.rules {before after : Store} (lasts : Store.Lasts before after)
    (allowances : Allowances) : after.rules allowances = before.rules allowances := by
  rw [Store.rules, Store.rules, lasts.chunk, lasts.settings, lasts.thread]

namespace Standing

/-- Nothing has come to an outcome yet. -/
def Unfinished : Standing → Prop
  | .ending _ => False
  | .coding _ | .hosting | .apart => True

/-- After an attempt to prepare an entry. -/
def entered : Except ScriptError Nat → Standing
  | .ok pointer => .coding pointer
  | .error error => .ending (.error error)

/-- After the instruction at `pointer` has ended. A resume leaves its coroutine there until the
other one is entered. -/
def after (pointer : Nat) : Flow → Standing
  | .goto next => .coding next
  | .returned value => .ending (.ok (.returned value))
  | .yielded value resumeAt => .ending (.ok (.yielded value resumeAt))
  | .callHost _ _ _ => .hosting
  | .resume _ _ _ => .coding pointer

end Standing

/-- The moves of a coroutine that is in use. -/
inductive Inner (rules : Rules) : Seen → Seen → Prop where
  /-- An instruction succeeds. -/
  | executes {coroutine : Coroutine} {processor : Processor} {marks : List Mark} {pointer : Nat}
      {flow : Flow} (driven : Driven marks)
      (effect : Store.Effect rules.chunk flow coroutine.processor processor) :
      Inner rules ⟨coroutine, marks, .coding pointer⟩
        ⟨{ coroutine with processor := processor }, marks, .after pointer flow⟩
  /-- An instruction fails. -/
  | falters {coroutine : Coroutine} {processor : Processor} {marks : List Mark} {pointer : Nat}
      {error : ScriptError} (driven : Driven marks)
      (effect : Store.Falters coroutine.processor processor) (allowed : rules.errors error) :
      Inner rules ⟨coroutine, marks, .coding pointer⟩
        ⟨{ coroutine with processor := processor }, marks, .ending (.error error)⟩
  /-- Work in the window, after which the coroutine goes on, fails, or lets another one go on. -/
  | works {coroutine : Coroutine} {processor : Processor} {marks : List Mark}
      {before after : Standing} (driven : Driven marks)
      (keeps : Keeps coroutine.processor processor) (unfinished : before.Unfinished)
      (reaches : after.Unfinished ∨ ∃ error, rules.errors error ∧ after = .ending (.error error)) :
      Inner rules ⟨coroutine, marks, before⟩
        ⟨{ coroutine with processor := processor }, marks, after⟩
  /-- It lets another one go on. -/
  | leaves {coroutine : Coroutine} {marks : List Mark} {before : Standing}
      (unfinished : before.Unfinished) :
      Inner rules ⟨coroutine, marks, before⟩ ⟨coroutine, marks, .apart⟩
  /-- The host calls a function. -/
  | calls {coroutine : Coroutine} {processor : Processor} {marks : List Mark} {before : Standing}
      {callee : Value} {arguments : List Value} {guard : ThreadGuard}
      {entered : Except ScriptError Nat} (used : Usable marks)
      (unfinished : before.Unfinished)
      (admitted : coroutine.processor.guard.enter rules.thread = .ok guard)
      (prepared : enterFromHost rules.chunk (some callee) arguments
        { coroutine.processor with guard := guard, mayYield := false } = (entered, processor)) :
      Inner rules ⟨coroutine, marks, before⟩
        ⟨{ coroutine with processor := processor },
          .call coroutine.processor.values.height coroutine.processor.frames.height
            coroutine.processor.mayYield :: marks, .entered entered⟩
  /-- A call is closed. -/
  | closesCall {coroutine : Coroutine} {valueHeight frameHeight : Nat} {mayYield : Bool}
      {marks : List Mark} {outcome : Outcome} :
      Inner rules ⟨coroutine, .call valueHeight frameHeight mayYield :: marks, .ending outcome⟩
        ⟨{ coroutine with
            processor := { restore valueHeight frameHeight mayYield coroutine.processor with
              guard := coroutine.processor.guard.leave.2 } }, marks, .apart⟩
  /-- It becomes normal, because it resumes another one. -/
  | waits {coroutine : Coroutine} {marks : List Mark} {before : Standing} (driven : Driven marks)
      (unfinished : before.Unfinished) (running : coroutine.status = .running) :
      Inner rules ⟨coroutine, marks, before⟩
        ⟨{ coroutine with status := .normal }, .wake :: marks, .apart⟩
  /-- It is woken. -/
  | wakes {coroutine : Coroutine} {marks : List Mark} :
      Inner rules ⟨coroutine, .wake :: marks, .apart⟩
        ⟨{ coroutine with status := .running }, marks, .apart⟩
  /-- Its guard is operated by hand. -/
  | guarded {coroutine : Coroutine} {marks : List Mark} {standing : Standing} {guard : ThreadGuard}
      (allowed : rules.guards)
      (operated : (∃ thread, coroutine.processor.guard.enter thread = .ok guard) ∨
        coroutine.processor.guard.leave.2 = guard) :
      Inner rules ⟨coroutine, marks, standing⟩
        ⟨{ coroutine with processor := { coroutine.processor with guard := guard } }, marks,
          standing⟩

/-- The moves of a coroutine. -/
inductive Move (rules : Rules) (id : CoroutineId) : Seen → Seen → Prop where
  | inner {before after : Seen} (move : Inner rules before after) : Move rules id before after
  /-- It is started or continued. -/
  | resumes {coroutine : Coroutine} {processor : Processor} {marks : List Mark} {before : Standing}
      {arguments : List Value} {guard : ThreadGuard} {entered : Except ScriptError Nat}
      (unfinished : before.Unfinished) (resumable : coroutine.status.isResumable = true)
      (free : coroutine.access = .free)
      (admitted : coroutine.processor.guard.enter rules.thread = .ok guard)
      (prepared : enterFromResume rules.chunk arguments
        { coroutine.processor with guard := guard } = (entered, processor)) :
      Move rules id ⟨coroutine, marks, before⟩
        ⟨⟨.running, .executing, coroutine.parent, processor⟩, .resume coroutine.status :: marks,
          .entered entered⟩
  /-- Its resume is closed. -/
  | closesResume {coroutine : Coroutine} {before : CoroutineStatus} {marks : List Mark}
      {outcome : Outcome} :
      Move rules id ⟨coroutine, .resume before :: marks, .ending outcome⟩
        ⟨⟨Machine.statusAfter before outcome, .free, coroutine.parent,
          { Machine.processorAfter outcome coroutine.processor with
            guard := coroutine.processor.guard.leave.2 }⟩, marks, .apart⟩
  /-- The script's own processor is taken through its handle. -/
  | borrows {coroutine : Coroutine} {marks : List Mark} {before : Standing}
      (isMain : id = Store.main) (unfinished : before.Unfinished)
      (free : coroutine.access = .free) :
      Move rules id ⟨coroutine, marks, before⟩
        ⟨{ coroutine with access := .executing }, .borrow :: marks, .apart⟩
  /-- A value is put on top of all others, or there is no room for it. -/
  | pushes {coroutine : Coroutine} {processor : Processor} {marks : List Mark}
      (isMain : id = Store.main) (grows : Grows coroutine.processor processor) :
      Move rules id ⟨coroutine, .borrow :: marks, .apart⟩
        ⟨{ coroutine with processor := processor }, .borrow :: marks, .apart⟩
  | releases {coroutine : Coroutine} {marks : List Mark} :
      Move rules id ⟨coroutine, .borrow :: marks, .apart⟩
        ⟨{ coroutine with access := .free }, marks, .apart⟩
  /-- The value on top of the script's own processor is called. -/
  | callsTop {coroutine : Coroutine} {processor : Processor} {marks : List Mark} {before : Standing}
      {arguments : List Value} {guard : ThreadGuard} {entered : Except ScriptError Nat}
      (allowed : rules.fromTop) (isMain : id = Store.main) (unfinished : before.Unfinished)
      (admitted : coroutine.processor.guard.enter rules.thread = .ok guard)
      (prepared : enterFromHost rules.chunk none arguments
        { coroutine.processor with guard := guard, mayYield := false } = (entered, processor)) :
      Move rules id ⟨coroutine, .borrow :: marks, before⟩
        ⟨{ coroutine with processor := processor },
          .call (coroutine.processor.values.height - 1) coroutine.processor.frames.height
            coroutine.processor.mayYield :: .borrow :: marks, .entered entered⟩
  /-- Someone begins or ends to look at it. -/
  | holds {coroutine : Coroutine} {marks : List Mark} {standing : Standing} {access : Access}
      (before : coroutine.access ≠ .executing) (after : access ≠ .executing) :
      Move rules id ⟨coroutine, marks, standing⟩
        ⟨{ coroutine with access := access }, marks, standing⟩
  /-- It is created. -/
  | born {coroutine : Coroutine} (other : id ≠ Store.main)
      (newborn : Store.Newborn rules.settings coroutine) :
      Move rules id ⟨.gone, [], .apart⟩ ⟨coroutine, [], .apart⟩

/-- Any number of moves. -/
abbrev Moves (rules : Rules) (id : CoroutineId) : Seen → Seen → Prop :=
  ReflTransGen (Move rules id)

/-- What every move of a coroutine keeps is kept by any number of them. With it an invariant of
single coroutines is proved once for each move. -/
theorem Moves.induct {rules : Rules} {id : CoroutineId} {holds : Seen → Prop}
    (kept : ∀ {before after}, Move rules id before after → holds before → holds after)
    {before after : Seen} (moves : Moves rules id before after) (first : holds before) :
    holds after := by
  induction moves with
  | refl => exact first
  | tail _ move inductionHypothesis => exact kept move inductionHypothesis

/-- The frames of a coroutine are as they were, and it has been neither entered nor left. -/
structure Readies (before after : Seen) : Prop where
  frames : after.coroutine.processor.frames.toList = before.coroutine.processor.frames.toList
  depth : depth after.marks = depth before.marks

/-- Nothing has been done. -/
theorem Readies.refl (seen : Seen) : Readies seen seen := ⟨rfl, rfl⟩

/-- Making ready for something in two steps. -/
theorem Readies.trans {first second third : Seen} (left : Readies first second)
    (right : Readies second third) : Readies first third :=
  ⟨right.frames.trans left.frames, right.depth.trans left.depth⟩

/-- The moves of a coroutine in one step of a machine. Only the last of them changes its frames,
enters it or leaves it. -/
inductive Course (rules : Rules) (id : CoroutineId) : Seen → Seen → Prop where
  | stays (seen : Seen) : Course rules id seen seen
  | moves {before middle after : Seen} (earlier : Course rules id before middle)
      (ready : Readies before middle) (move : Move rules id middle after) :
      Course rules id before after

namespace Course

variable {rules : Rules} {id : CoroutineId} {first second third : Seen}

/-- One move makes a course: it is its last one. -/
theorem single (move : Move rules id first second) : Course rules id first second :=
  .moves (.stays first) (.refl first) move

/-- A course goes on with another one if it has only made ready for it. -/
theorem trans (left : Course rules id first second) (ready : Readies first second)
    (right : Course rules id second third) : Course rules id first third := by
  induction right with
  | stays => exact left
  | moves _ later move inductionHypothesis =>
    exact .moves inductionHypothesis (ready.trans later) move

/-- A course is a number of moves; that the last one is special is forgotten. -/
theorem toMoves (course : Course rules id first second) : Moves rules id first second := by
  induction course with
  | stays => exact .refl
  | moves _ _ move inductionHypothesis => exact inductionHypothesis.tail move

end Course

variable {W : Type}

/-- From one machine to another every coroutine has made the moves of one step only. -/
structure Advances (rules : Rules) (before after : Machine W) : Prop where
  lasts : Store.Lasts before.store after.store
  orderly : Orderly after
  courses : ∀ id, Course rules id (before.seen id) (after.seen id)

/-- Every coroutine of a machine that advances has made moves. -/
theorem Advances.moves {rules : Rules} {before after : Machine W}
    (advances : Advances rules before after) (id : CoroutineId) :
    Moves rules id (before.seen id) (after.seen id) := (advances.courses id).toMoves

/-- What has only been made ready for goes on in the same step. -/
theorem Advances.trans {rules : Rules} {first second third : Machine W}
    (left : Advances rules first second) (ready : ∀ id, Readies (first.seen id) (second.seen id))
    (right : Advances rules second third) : Advances rules first third where
  lasts := left.lasts.trans right.lasts
  orderly := right.orderly
  courses := fun id => (left.courses id).trans (ready id) (right.courses id)

end CoroutineVM
