import CoroutineVM.Proofs.Store.Likeness
import CoroutineVM.Proofs.Store.Underlay
import CoroutineVM.Machine.Entry

/-!
# Stores with more room

How many values and frames fit on the stacks of a processor is seen nowhere but where one of them is
full. Take two stores that differ in their settings, in the capacities of their stacks and, if only
one of them counts, in their counters. Whatever is done in the store with less room without a stack
overflow is done in the same way in the other one, and they differ in nothing else afterwards.
-/

namespace CoroutineVM

open Attempt

/-- Whether a stack was full. -/
def ScriptError.isOverflow : ScriptError → Bool
  | .stackOverflow _ => true
  | _ => false

/-- The error of a full stack. -/
abbrev Overflow (error : ScriptError) : Prop := error.isOverflow = true

/-- Both stacks of the second settings are as high or higher. -/
structure Settings.Widens (small large : Settings) : Prop where
  values : small.valueCapacity ≤ large.valueCapacity
  frames : small.frameCapacity ≤ large.frameCapacity

/-! ### Processors -/

/-- The second stack holds the same and has no less room. -/
structure BoundedStack.Wider {α : Type} (first second : BoundedStack α) : Prop where
  items : second.items = first.items
  room : first.capacity ≤ second.capacity

/-- What is on both stacks is the same. -/
theorem BoundedStack.Wider.toList {α : Type} {first second : BoundedStack α}
    (wider : first.Wider second) :
    second.toList = first.toList := congrArg Array.toList wider.items

/-- Where the smaller stack is not full the larger one is not either. -/
theorem BoundedStack.Wider.full {α : Type} {first second : BoundedStack α}
    (wider : first.Wider second) (space : ¬ first.isFull = true) : ¬ second.isFull = true := by
  have room := wider.room
  rw [BoundedStack.isFull_iff, BoundedStack.height] at space ⊢
  rw [wider.items]
  omega

/-- A push keeps them so. -/
theorem BoundedStack.Wider.append {α : Type} {first second : BoundedStack α}
    (wider : first.Wider second) (item : α) : (first.append item).Wider (second.append item) :=
  ⟨congrArg (·.push item) wider.items, wider.room⟩

/-- So does taking values away. -/
theorem BoundedStack.Wider.truncate {α : Type} {first second : BoundedStack α}
    (wider : first.Wider second) (height : Nat) :
    (first.truncate height).Wider (second.truncate height) :=
  ⟨congrArg (·.shrink height) wider.items, wider.room⟩

namespace Processor

/-- The second processor is the same but for the room on its stacks. -/
structure Wider (first second : Processor) : Prop where
  values : first.values.Wider second.values
  frames : first.frames.Wider second.frames
  entry : second.entry = first.entry
  mayYield : second.mayYield = first.mayYield
  savedPointer : second.savedPointer = first.savedPointer
  guard : second.guard = first.guard

/-- What processors do they do alike with more room, with a stack overflow as the one exception. It
is enough to look at what they are built of, and there only a push asks for room. -/
theorem likeness_wider : Likeness Overflow Wider where
  values := fun wider => wider.values.items
  frames := fun wider => wider.frames.items
  setValues := fun wider items => { wider with values := ⟨rfl, wider.values.room⟩ }
  setFrames := fun wider items => { wider with frames := ⟨rfl, wider.frames.room⟩ }
  push := by
    intro value first second wider
    rw [push, push]
    split
    · exact .inl ⟨_, rfl, rfl⟩
    next space =>
      rw [if_neg (wider.values.full space)]
      exact .inr ⟨rfl, { wider with values := wider.values.append value }⟩
  pushFrame := by
    intro closure entryPoint returnPoint first second wider
    rw [pushFrame, pushFrame]
    split
    · exact .inl ⟨_, rfl, rfl⟩
    next space =>
      rw [if_neg (wider.frames.full space)]
      have height : second.values.height = first.values.height :=
        congrArg Array.size wider.values.items
      rw [height]
      exact .inr ⟨rfl, { wider with frames := wider.frames.append _ }⟩

/-- A resume finds the same saved place or the same function on both. -/
theorem follows_enterFromResume (chunk : Chunk) (arguments : List Value) :
    Follows Overflow Wider (enterFromResume chunk arguments) (enterFromResume chunk arguments) := by
  intro first second wider
  rw [enterFromResume, enterFromResume, wider.savedPointer, wider.entry]
  split
  next pointer saved =>
    have pushes : Follows Overflow Wider
        (do push (.pack (Value.spread arguments)); return pointer : Attempt Processor Nat)
        (do push (.pack (Value.spread arguments)); return pointer : Attempt Processor Nat) :=
      follows_bind (likeness_wider.push _) fun _ => follows_pure pointer
    exact pushes _ _ { wider with entry := rfl, savedPointer := rfl }
  next =>
    split
    next closure _ =>
      exact likeness_wider.enterFromHost chunk _ arguments _ _
        { wider with entry := rfl, savedPointer := rfl }
    next => exact .inr ⟨rfl, wider⟩

/-- Going back to the heights of a call is the same on both. -/
theorem Wider.restore {first second : Processor} (wider : first.Wider second)
    (valueHeight frameHeight : Nat) (mayYield : Bool) :
    (Processor.restore valueHeight frameHeight mayYield first).Wider
      (Processor.restore valueHeight frameHeight mayYield second) :=
  { wider with
    values := wider.values.truncate valueHeight
    frames := wider.frames.truncate frameHeight
    mayYield := rfl }

/-- So is clearing them. -/
theorem Wider.clear {first second : Processor} (wider : first.Wider second) :
    first.clear.Wider second.clear :=
  { wider with
    values := ⟨rfl, wider.values.room⟩
    frames := ⟨rfl, wider.frames.room⟩
    savedPointer := rfl }

end Processor

/-! ### Coroutines and stores -/

/-- The second coroutine is the same but for the room on the stacks of its processor. -/
structure Coroutine.Wider (first second : Coroutine) : Prop where
  status : second.status = first.status
  access : second.access = first.access
  parent : second.parent = first.parent
  processor : first.processor.Wider second.processor

/-- A coroutine that is not there has no more room in the one store than in the other. -/
theorem Coroutine.wider_gone : Coroutine.gone.Wider Coroutine.gone :=
  ⟨rfl, rfl, rfl, ⟨⟨rfl, Nat.le_refl _⟩, ⟨rfl, Nat.le_refl _⟩, rfl, rfl, rfl, rfl⟩⟩

namespace Store

/-- The second store is the same but for its settings, the room on its stacks, and its counters if
only one of the two counts. -/
structure Wider (small large : Settings) (first second : Store) : Prop where
  widens : small.Widens large
  smallSettings : first.settings = small
  largeSettings : second.settings = large
  chunk : second.chunk = first.chunk
  tables : second.tables = first.tables
  cells : second.cells = first.cells
  nextScope : second.nextScope = first.nextScope
  size : second.coroutines.size = first.coroutines.size
  coroutines : ∀ id, (first.coroutine id).Wider (second.coroutine id)
  counters : large.counting = small.counting → second.counters = first.counters
  debugger : second.debugger = first.debugger
  thread : second.thread = first.thread

variable {small large : Settings} {first second : Store} {id : CoroutineId}

/-- The processors of both stores differ in room only. -/
theorem Wider.processor (wider : Wider small large first second) (id : CoroutineId) :
    (first.processor id).Wider (second.processor id) := (wider.coroutines id).processor

/-- The statuses are the same. -/
theorem Wider.status (wider : Wider small large first second) (id : CoroutineId) :
    second.status id = first.status id := (wider.coroutines id).status

/-- So is who uses them. -/
theorem Wider.access (wider : Wider small large first second) (id : CoroutineId) :
    second.access id = first.access id := (wider.coroutines id).access

/-- So is whom their guards let in, since both stores are of the same thread. -/
theorem Wider.passGuard (wider : Wider small large first second) (id : CoroutineId) :
    second.passGuard id = first.passGuard id := by
  rw [Store.passGuard, Store.passGuard, (wider.processor id).guard, wider.thread]

/-- Changes of one coroutine in both stores keep them so if they keep that coroutine so; the others
are as they were. -/
theorem Wider.modify (wider : Wider small large first second) (id : CoroutineId)
    {change alter : Coroutine → Coroutine}
    (kept : (first.coroutine id).Wider (second.coroutine id) →
      (change (first.coroutine id)).Wider (alter (second.coroutine id))) :
    Wider small large (first.modifyCoroutine id change) (second.modifyCoroutine id alter) := by
  refine { wider with size := ?_, coroutines := fun other => ?_ }
  · simpa [modifyCoroutine] using wider.size
  · by_cases same : other = id
    · subst same
      by_cases known : first.Has other
      · have knownToo : second.Has other := by
          rw [Has, wider.size]
          exact known
        rw [coroutine_modifyCoroutine known, coroutine_modifyCoroutine knownToo]
        exact kept (wider.coroutines other)
      · have unknown : ¬ second.Has other := by
          rw [Has, wider.size]
          exact known
        rw [coroutine_gone (by simpa using known), coroutine_gone (by simpa using unknown)]
        exact Coroutine.wider_gone
    · rw [coroutine_modifyCoroutine_other same, coroutine_modifyCoroutine_other same]
      exact wider.coroutines other

/-- Changes of one processor in both stores. -/
theorem Wider.modifyProcessor (wider : Wider small large first second) (id : CoroutineId)
    {change alter : Processor → Processor}
    (kept : (first.processor id).Wider (second.processor id) →
      (change (first.processor id)).Wider (alter (second.processor id))) :
    Wider small large (first.modifyProcessor id change) (second.modifyProcessor id alter) :=
  wider.modify id fun both => { both with processor := kept both.processor }

/-- A status that is set in both keeps them so. -/
theorem Wider.setStatus (wider : Wider small large first second) (id : CoroutineId)
    (status : CoroutineStatus) :
    Wider small large (first.setStatus id status) (second.setStatus id status) :=
  wider.modify id fun both => { both with status := rfl }

/-- So does an access. -/
theorem Wider.setAccess (wider : Wider small large first second) (id : CoroutineId)
    (access : Access) :
    Wider small large (first.setAccess id access) (second.setAccess id access) :=
  wider.modify id fun both => { both with access := rfl }

/-- And a guard. -/
theorem Wider.setGuard (wider : Wider small large first second) (id : CoroutineId)
    (guard : ThreadGuard) :
    Wider small large (first.setGuard id guard) (second.setGuard id guard) :=
  wider.modifyProcessor id fun both => { both with guard := rfl }

/-- What an attempt comes to that follows on wider processors. -/
theorem follows_onProcessor {α : Type} (id : CoroutineId) {attempt : Attempt Processor α}
    (follows : Follows Overflow Processor.Wider attempt attempt) :
    Follows Overflow (Wider small large) (onProcessor id attempt) (onProcessor id attempt) := by
  intro first second wider
  rw [onProcessor_eq, onProcessor_eq]
  obtain ⟨error, failed, overflow⟩ | ⟨same, reached⟩ := follows _ _ (wider.processor id)
  · exact .inl ⟨error, failed, overflow⟩
  · refine .inr ⟨same, ?_⟩
    dsimp only
    exact wider.modifyProcessor id fun _ => reached

/-- Instructions do alike in both stores, as what they are built of does. -/
theorem likeness_wider (id : CoroutineId) :
    Likeness Overflow Processor.Wider id id (Wider small large) where
  processors := Processor.likeness_wider
  onProcessor := follows_onProcessor id
  chunk := fun wider => wider.chunk
  tables := fun wider => wider.tables
  cells := fun wider => wider.cells
  createCell := fun value _ _ wider =>
    .inr ⟨congrArg (fun cells : Array Value => Except.ok cells.size) wider.cells,
      { wider with cells := congrArg (·.push value) wider.cells }⟩
  createClosure := fun function cells _ _ wider =>
    .inr ⟨congrArg (fun scope : ScopeId => Except.ok (⟨function, ⟨scope, cells⟩⟩ : Closure))
        wider.nextScope,
      { wider with nextScope := congrArg (· + 1) wider.nextScope }⟩
  writeCell := fun wider cell value =>
    { wider with cells := congrArg (·.setIfInBounds cell value) wider.cells }
  setGlobal := fun wider name value =>
    { wider with tables := congrArg (·.set globals name value) wider.tables }

/-- A new coroutine gets stacks of the height that its settings ask for, which is where the
capacities of both stores come from. -/
theorem Wider.push (wider : Wider small large first second) (parent : CoroutineId)
    (closure : Closure) :
    Wider small large
      { first with coroutines := first.coroutines.push ⟨.notStarted, .free, some parent,
        .idle first.settings.valueCapacity first.settings.frameCapacity (some closure)⟩ }
      { second with coroutines := second.coroutines.push ⟨.notStarted, .free, some parent,
        .idle second.settings.valueCapacity second.settings.frameCapacity (some closure)⟩ } := by
  refine { wider with size := ?_, coroutines := fun other => ?_ }
  · simp [wider.size]
  · by_cases newest : other = first.coroutines.size
    · subst newest
      -- The one place where the settings come in: the stacks of a new coroutine.
      have values := wider.widens.values
      have frames := wider.widens.frames
      rw [← wider.smallSettings, ← wider.largeSettings] at values frames
      have last : (second.coroutines.push ⟨.notStarted, .free, some parent,
          .idle second.settings.valueCapacity second.settings.frameCapacity (some closure)⟩)[
            first.coroutines.size]? = some ⟨.notStarted, .free, some parent,
          .idle second.settings.valueCapacity second.settings.frameCapacity (some closure)⟩ := by
        rw [← wider.size, Array.getElem?_push_size]
      simp only [coroutine, Array.getElem?_push_size, last, Option.getD_some]
      exact ⟨rfl, rfl, rfl, ⟨rfl, values⟩, ⟨rfl, frames⟩, rfl, rfl, rfl, rfl⟩
    · rw [coroutine_push_other newest, coroutine_push_other (wider.size ▸ newest)]
      exact wider.coroutines other

/-- Whatever is excused, a new coroutine is made in both stores or in neither. -/
theorem follows_spawn {excused : ScriptError → Prop} (parent : CoroutineId) (function : Value) :
    Follows excused (Wider small large) (spawn parent function) (spawn parent function) := by
  unfold spawn
  split
  next closure =>
    refine follows_bind (follows_check fun wider => by simp only [wider.chunk]) fun _ => ?_
    intro first second wider
    exact .inr ⟨congrArg Except.ok wider.size, wider.push parent closure⟩
  next => exact follows_fail _

/-- Every instruction does the same in both stores, unless a stack of the first one is full. Those
that are about coroutines are looked at one by one, and all others do as what they are built of. -/
theorem follows_execute (id : CoroutineId) (instruction : Instruction) (next : Nat) :
    Follows Overflow (Wider small large) (execute id instruction next)
      (execute id instruction next) := by
  have likeness : Likeness Overflow Processor.Wider id id (Wider small large) := likeness_wider id
  by_cases plain : instruction.concernsCoroutines = false
  · exact likeness.execute plain next
  · cases instruction with
    | yield count =>
      refine follows_bind (follows_read fun wider => (wider.processor id).mayYield)
        fun mayYield => ?_
      split
      · exact follows_bind (follows_onProcessor id (Processor.likeness_wider.popResult count))
          fun _ => follows_pure _
      · exact follows_fail _
    | createCoroutine =>
      exact likeness.taking fun function => follows_bind (follows_spawn id _) fun created =>
        likeness.pushing _ next
    | resumeCoroutine count =>
      refine follows_bind (follows_onProcessor id (Processor.likeness_wider.popMany count))
        fun _ => ?_
      exact follows_bind (likeness.popCoroutine _) fun _ => follows_pure _
    | coroutineStatus =>
      refine follows_bind (likeness.popCoroutine _) fun target => ?_
      exact follows_bind (follows_read fun wider => wider.status target) fun status =>
        likeness.pushing _ next
    | currentCoroutine => exact likeness.pushing _ next
    | _ => exact absurd rfl plain

/-- What the host changes without entering code it changes alike in both, because nothing of what
such a change looks at is different. -/
theorem Wider.edit (wider : Wider small large first second) (change : Edit) :
    Wider small large (first.edit change) (second.edit change) := by
  cases change with
  | createTable =>
    exact { wider with tables := congrArg (fun tables => tables.create.2) wider.tables }
  | setEntry table name value =>
    exact { wider with tables := congrArg (·.set table name value) wider.tables }
  | createCell value => exact { wider with cells := congrArg (·.push value) wider.cells }
  | writeCell cell value =>
    exact { wider with cells := congrArg (·.setIfInBounds cell value) wider.cells }
  | createScope => exact { wider with nextScope := congrArg (· + 1) wider.nextScope }
  | attach debugger => exact { wider with debugger := rfl }
  | resetCounters =>
    exact { wider with counters := fun counted => congrArg Counters.reset (wider.counters counted) }
  | hold id =>
    simp only [Store.edit, Store.hold, wider.access id]
    split
    · exact wider
    · exact wider.setAccess id _
  | letGo id =>
    simp only [Store.edit, Store.letGo, wider.access id]
    split
    · exact wider.setAccess id _
    · exact wider
  | enterGuard id thread =>
    simp only [Store.edit, Store.enterGuard, (wider.processor id).guard]
    split
    · exact wider.setGuard id _
    · exact wider
  | leaveGuard id =>
    simp only [Store.edit, Store.leaveGuard, (wider.processor id).guard]
    exact wider.setGuard id _

/-- A new script with more room. -/
theorem wider_initial (widens : small.Widens large) (chunk : Chunk) (thread : ThreadId) :
    Wider small large (.initial chunk small thread) (.initial chunk large thread) := by
  refine ⟨widens, rfl, rfl, rfl, rfl, rfl, rfl, rfl, fun id => ?_, fun counted => ?_, rfl, rfl⟩
  · by_cases isMain : id = main
    · subst isMain
      exact ⟨rfl, rfl, rfl, ⟨rfl, widens.values⟩, ⟨rfl, widens.frames⟩, rfl, rfl, rfl, rfl⟩
    · have unknown : ∀ settings, ¬ (Store.initial chunk settings thread).Has id := by
        intro settings
        rw [Has]
        simpa [initial, main] using isMain
      rw [coroutine_gone (unknown small), coroutine_gone (unknown large)]
      exact Coroutine.wider_gone
  · exact congrArg Counters.zero counted

end Store

end CoroutineVM
