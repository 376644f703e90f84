import CoroutineVM.Proofs.Processor.Window
import CoroutineVM.Store.Execution

/-!
# One coroutine of a store

A store is looked at through one coroutine at a time. Changing a coroutine shows there and nowhere
else, and an attempt on a processor is such a change. `Touches` states it of two stores: one
coroutine keeps its handle while its processor changes in a stated way, and every other one is as it
was, unless it has just been created.
-/

namespace CoroutineVM.Store

/-- Whether there is a coroutine of this name. -/
def Has (store : Store) (id : CoroutineId) : Prop := id < store.coroutines.size

/-! ### Changing one coroutine -/

/-- A change shows in the coroutine that it is about, if there is such a coroutine. -/
theorem coroutine_modifyCoroutine {store : Store} {id : CoroutineId} (known : store.Has id)
    (change : Coroutine → Coroutine) :
    (store.modifyCoroutine id change).coroutine id = change (store.coroutine id) := by
  rw [Has] at known
  simp [modifyCoroutine, coroutine, Array.getElem_modify, known]

/-- It shows in no other one. -/
theorem coroutine_modifyCoroutine_other {store : Store} {id other : CoroutineId}
    (different : other ≠ id) (change : Coroutine → Coroutine) :
    (store.modifyCoroutine id change).coroutine other = store.coroutine other := by
  simp [modifyCoroutine, coroutine, Array.getElem?_modify, different.symm]

/-- A coroutine is read from the array alone, so stores with the same array read alike. -/
theorem coroutine_congr {first second : Store} (same : first.coroutines = second.coroutines)
    (id : CoroutineId) : first.coroutine id = second.coroutine id := by
  rw [coroutine, coroutine, same]

/-- So does the same change of both stores: whatever else is different between them does not
enter. -/
theorem modifyCoroutine_congr {first second : Store} (same : first.coroutines = second.coroutines)
    (id : CoroutineId) (change : Coroutine → Coroutine) :
    (first.modifyCoroutine id change).coroutines =
      (second.modifyCoroutine id change).coroutines := by
  rw [modifyCoroutine, modifyCoroutine, same]

/-- A name that no coroutine has reads as one that is gone. That keeps reading total, and statements
about all names true of those as well. -/
theorem coroutine_gone {store : Store} {id : CoroutineId} (unknown : ¬ store.Has id) :
    store.coroutine id = .gone := by
  rw [Has] at unknown
  simp [coroutine, Array.getElem?_eq_none (Nat.le_of_not_lt unknown)]

/-- A change creates no coroutine and forgets none. -/
@[simp]
theorem has_modifyCoroutine (store : Store) (id other : CoroutineId)
    (change : Coroutine → Coroutine) :
    (store.modifyCoroutine id change).Has other ↔ store.Has other := by
  simp [Has, modifyCoroutine]

/-- After a change each coroutine is as it was, or it is the one that the change is about, and there
is such a coroutine. -/
theorem coroutine_modify_cases (store : Store) (id other : CoroutineId)
    (change : Coroutine → Coroutine) :
    (store.modifyCoroutine id change).coroutine other = store.coroutine other ∨
      other = id ∧ store.Has id ∧
        (store.modifyCoroutine id change).coroutine other = change (store.coroutine id) := by
  by_cases same : other = id
  · subst same
    by_cases known : store.Has other
    · exact .inr ⟨rfl, known, coroutine_modifyCoroutine known change⟩
    · have still : ¬ (store.modifyCoroutine other change).Has other := by simpa using known
      left
      rw [coroutine_gone known, coroutine_gone still]
  · exact .inl (coroutine_modifyCoroutine_other same change)

/-- What a change leaves alone reads the same of every coroutine. Facts about statuses survive
changes of processors by it, and the other way round. -/
theorem read_modifyCoroutine {α : Type} (read : Coroutine → α) {change : Coroutine → Coroutine}
    (kept : ∀ coroutine, read (change coroutine) = read coroutine) (store : Store)
    (id other : CoroutineId) :
    read ((store.modifyCoroutine id change).coroutine other) = read (store.coroutine other) := by
  obtain same | ⟨rfl, _, changed⟩ := coroutine_modify_cases store id other change
  · rw [same]
  · rw [changed, kept]

/-- Stores that differ in their coroutines at most are the same if each coroutine is. Equations
between changes of a store are reduced by it to one coroutine at a time. -/
theorem eq_of_coroutines {first second : Store}
    (others : first = { second with coroutines := first.coroutines })
    (size : first.coroutines.size = second.coroutines.size)
    (same : ∀ id, first.Has id → first.coroutine id = second.coroutine id) : first = second := by
  have coroutines : first.coroutines = second.coroutines := by
    apply Array.ext size
    intro index left right
    simpa [coroutine, left, right] using same index left
  exact others.trans (by rw [coroutines])

/-- Several changes of one coroutine are one change, made in the same order. -/
theorem modifyCoroutine_twice (store : Store) (id : CoroutineId)
    (first second : Coroutine → Coroutine) :
    (store.modifyCoroutine id first).modifyCoroutine id second =
      store.modifyCoroutine id fun coroutine => second (first coroutine) := by
  refine eq_of_coroutines rfl (by simp [modifyCoroutine]) fun other there => ?_
  by_cases same : other = id
  · subst same
    have known : store.Has other := by simpa using there
    rw [coroutine_modifyCoroutine (by simpa using known), coroutine_modifyCoroutine known,
      coroutine_modifyCoroutine known]
  · simp only [coroutine_modifyCoroutine_other same]

/-- A change matters only for what it makes of the coroutine that there is. What it would make of
others need not be compared. -/
theorem modifyCoroutine_congr_at {store : Store} {id : CoroutineId}
    {first second : Coroutine → Coroutine}
    (same : first (store.coroutine id) = second (store.coroutine id)) :
    store.modifyCoroutine id first = store.modifyCoroutine id second := by
  refine eq_of_coroutines rfl (by simp [modifyCoroutine]) fun other there => ?_
  by_cases isId : other = id
  · subst isId
    have known : store.Has other := by simpa using there
    rw [coroutine_modifyCoroutine known, coroutine_modifyCoroutine known, same]
  · simp only [coroutine_modifyCoroutine_other isId]

/-- A change that leaves a coroutine as it is leaves the store as it is. -/
theorem modifyCoroutine_same {store : Store} {id : CoroutineId} {change : Coroutine → Coroutine}
    (same : change (store.coroutine id) = store.coroutine id) :
    store.modifyCoroutine id change = store := by
  refine eq_of_coroutines rfl (by simp [modifyCoroutine]) fun other _ => ?_
  obtain kept | ⟨rfl, _, changed⟩ := coroutine_modify_cases store id other change
  · exact kept
  · exact changed.trans same

/-- Changes of two coroutines can be made in either order, since neither of them looks at the other
one. -/
theorem modifyCoroutine_comm {store : Store} {id other : CoroutineId} (different : other ≠ id)
    (first second : Coroutine → Coroutine) :
    (store.modifyCoroutine id first).modifyCoroutine other second =
      (store.modifyCoroutine other second).modifyCoroutine id first := by
  refine eq_of_coroutines rfl (by simp [modifyCoroutine]) fun any there => ?_
  have known : store.Has any := by simpa using there
  by_cases isId : any = id
  · subst isId
    rw [coroutine_modifyCoroutine_other (Ne.symm different), coroutine_modifyCoroutine known,
      coroutine_modifyCoroutine (by simpa using known),
      coroutine_modifyCoroutine_other (Ne.symm different)]
  · rw [coroutine_modifyCoroutine_other isId]
    by_cases isOther : any = other
    · subst isOther
      rw [coroutine_modifyCoroutine (by simpa using known), coroutine_modifyCoroutine_other isId,
        coroutine_modifyCoroutine known]
    · simp only [coroutine_modifyCoroutine_other isOther, coroutine_modifyCoroutine_other isId]

/-- A processor that is put back as it was changes nothing. -/
theorem modifyProcessor_same (store : Store) (id : CoroutineId) :
    store.modifyProcessor id (fun _ => store.processor id) = store := modifyCoroutine_same rfl

/-- Taking a coroutine out of the store for an attempt on its processor is only a way to change it.
The source borrows the processor for the time of the attempt, and nothing else can look at it
then. -/
theorem onProcessor_eq {α : Type} (id : CoroutineId) (attempt : Attempt Processor α)
    (store : Store) :
    onProcessor id attempt store = ((attempt (store.processor id)).1,
      store.modifyProcessor id fun _ => (attempt (store.processor id)).2) := by
  obtain ⟨chunk, settings, tables, cells, nextScope, coroutines, counters, debugger, thread⟩ :=
    store
  by_cases inside : id < coroutines.size
  · have placed : (coroutines.set id .gone inside).setIfInBounds id
        { coroutines[id] with processor := (attempt coroutines[id].processor).2 } =
        coroutines.modify id fun coroutine =>
          { coroutine with processor := (attempt coroutines[id].processor).2 } := by
      apply Array.ext_getElem?
      intro index
      by_cases same : id = index
      · subst same
        simp [inside, Array.getElem_modify]
      · simp [same, Array.getElem?_modify]
    simp [onProcessor, inside, onTaken, placed, processor, coroutine, modifyProcessor,
      modifyCoroutine]
  · have unchanged : coroutines.modify id (fun coroutine =>
        { coroutine with processor := (attempt Coroutine.gone.processor).2 }) = coroutines := by
      apply Array.ext_getElem?
      intro index
      by_cases same : id = index
      · subst same
        simp [inside]
      · simp [same, Array.getElem?_modify]
    simp [onProcessor, inside, processor, coroutine, modifyProcessor, modifyCoroutine, unchanged]

/-- A value is put on a stack, or there is no room for it. Nothing but that stack changes. -/
theorem push_cases (id : CoroutineId) (value : Value) (store : Store) :
    ∃ result processor, Processor.Grows (store.processor id) processor ∧
      (∀ error, result = .error error → error.isOwn = true) ∧
      onProcessor id (Processor.push value) store =
        (result, store.modifyProcessor id fun _ => processor) := by
  have pushes := Processor.onlyGrows_push value (store.processor id)
  rw [onProcessor_eq]
  rw [Attempt.Ends] at pushes
  generalize Processor.push value (store.processor id) = run at pushes ⊢
  obtain ⟨result, processor⟩ := run
  cases result with
  | ok done => exact ⟨_, processor, pushes, fun _ failed => (by cases failed), rfl⟩
  | error error =>
    refine ⟨_, processor, pushes.1, ?_, rfl⟩
    rintro _ ⟨⟩
    exact pushes.2

/-! ### Work on one coroutine -/

/-- A coroutine that has just been created. -/
def Newborn (settings : Settings) (coroutine : Coroutine) : Prop :=
  ∃ parent closure, coroutine = ⟨.notStarted, .free, some parent,
    .idle settings.valueCapacity settings.frameCapacity (some closure)⟩

/-- What stays the same for as long as a script lives, and coroutines are never forgotten. -/
structure Lasts (before after : Store) : Prop where
  chunk : after.chunk = before.chunk
  settings : after.settings = before.settings
  thread : after.thread = before.thread
  size : before.coroutines.size ≤ after.coroutines.size

/-- Apart from those with a name in `ids`, coroutines are as they were or have just been created. -/
def Apart (changed : CoroutineId → Prop) (before after : Store) : Prop :=
  ∀ other, ¬ changed other → after.coroutine other = before.coroutine other ∨
    (¬ before.Has other ∧ after.Has other ∧ Newborn before.settings (after.coroutine other))

/-- One coroutine keeps its handle, and its processor changes as stated. Nothing is counted. -/
structure Touches (id : CoroutineId) (relation : Processor → Processor → Prop)
    (before after : Store) : Prop extends Lasts before after where
  counters : after.counters = before.counters
  others : Apart (· = id) before after
  own : ∃ processor, after.coroutine id = { before.coroutine id with processor := processor } ∧
    relation (before.processor id) processor

/-- A store lasts as itself. -/
theorem Lasts.refl (store : Store) : Lasts store store := ⟨rfl, rfl, rfl, Nat.le_refl _⟩

/-- Changing a coroutine leaves what belongs to the whole script. -/
theorem lasts_modifyCoroutine (store : Store) (id : CoroutineId) (change : Coroutine → Coroutine) :
    Lasts store (store.modifyCoroutine id change) :=
  ⟨rfl, rfl, rfl, by simp [modifyCoroutine]⟩

/-- What never changes in either of two steps does not change in both together. -/
theorem Lasts.trans {first second third : Store} (left : Lasts first second)
    (right : Lasts second third) : Lasts first third where
  chunk := right.chunk.trans left.chunk
  settings := right.settings.trans left.settings
  thread := right.thread.trans left.thread
  size := Nat.le_trans left.size right.size

/-- A coroutine that there is stays: the number of coroutines does not go down, and names are
places. -/
theorem Lasts.has {before after : Store} (lasts : Lasts before after) {id : CoroutineId}
    (known : before.Has id) : after.Has id := Nat.lt_of_lt_of_le known lasts.size

/-- A coroutine that the first of two changes creates is there before the second one, which can then
only leave it as it is. -/
theorem Apart.trans {changed : CoroutineId → Prop} {first second third : Store}
    (lasts : Lasts first second) (later : Lasts second third) (left : Apart changed first second)
    (right : Apart changed second third) : Apart changed first third := by
  intro other different
  cases left other different with
  | inl same =>
    cases right other different with
    | inl kept => exact .inl (kept.trans same)
    | inr created =>
      obtain ⟨unknown, known, newborn⟩ := created
      exact .inr ⟨fun had => unknown (lasts.has had), known, lasts.settings ▸ newborn⟩
  | inr created =>
    obtain ⟨unknown, known, newborn⟩ := created
    cases right other different with
    | inl kept => exact .inr ⟨unknown, later.has known, kept ▸ newborn⟩
    | inr again => exact absurd known again.1

variable {id : CoroutineId}

/-- When nothing happens to the coroutines, all of them keep what they have, and the relation only
has to hold of a processor and itself. -/
theorem touches_same {before after : Store} (lasts : Lasts before after)
    (same : after.coroutines = before.coroutines) (counters : after.counters = before.counters)
    {relation : Processor → Processor → Prop}
    (kept : relation (before.processor id) (before.processor id)) :
    Touches id relation before after where
  toLasts := lasts
  counters := counters
  others := fun other _ => .inl (coroutine_congr same other)
  own := ⟨_, coroutine_congr same id, kept⟩

/-- Two steps that touch one coroutine touch it together; how its processor has changed is composed
as the caller says. -/
theorem Touches.trans {first second third : Store} {left right both : Processor → Processor → Prop}
    (compose : ∀ a b c, left a b → right b c → both a c) (before : Touches id left first second)
    (after : Touches id right second third) : Touches id both first third := by
  obtain ⟨middle, became, reached⟩ := before.own
  obtain ⟨final, becomes, reaches⟩ := after.own
  refine ⟨before.toLasts.trans after.toLasts, after.counters.trans before.counters,
    before.others.trans before.toLasts after.toLasts after.others, final, ?_, ?_⟩
  · rw [becomes, became]
  · have seen : second.processor id = middle := by rw [processor, became]
    exact compose _ _ _ reached (seen ▸ reaches)

/-- The relation between the processors may be weakened. -/
theorem Touches.mono {before after : Store} {strong weak : Processor → Processor → Prop}
    (weaker : ∀ a b, strong a b → weak a b) (touches : Touches id strong before after) :
    Touches id weak before after := by
  obtain ⟨changed, became, reached⟩ := touches.own
  exact ⟨touches.toLasts, touches.counters, touches.others, changed, became, weaker _ _ reached⟩

/-- The processors before and after are related, whatever has happened to the rest of the store. -/
theorem Touches.processor {before after : Store} {relation : Processor → Processor → Prop}
    (touches : Touches id relation before after) :
    relation (before.processor id) (after.processor id) := by
  obtain ⟨processor, became, reached⟩ := touches.own
  have same : after.processor id = processor := congrArg Coroutine.processor became
  rw [same]
  exact reached

/-- When the processor that is touched keeps its frames, every other one does, too. A coroutine that
has just been created has none, and neither has a name that is not in use yet. -/
theorem Touches.sameFrames {before after : Store} {relation : Processor → Processor → Prop}
    (touches : Touches id relation before after)
    (kept : ∀ processor, relation (before.processor id) processor →
      processor.frames = (before.processor id).frames) (other : CoroutineId) :
    (after.processor other).frames.toList = (before.processor other).frames.toList := by
  by_cases same : other = id
  · subst same
    rw [kept _ touches.processor]
  · obtain same | ⟨unknown, _, parent, closure, newborn⟩ := touches.others other same
    · rw [Store.processor, same, Store.processor]
    · rw [Store.processor, newborn, Store.processor, coroutine_gone unknown]
      rfl

/-- An attempt on a processor touches that processor and keeps the handle that it belongs to. -/
theorem touches_onProcessor {store : Store} (known : store.Has id) (processor : Processor)
    {relation : Processor → Processor → Prop} (reached : relation (store.processor id) processor) :
    Touches id relation store (store.modifyProcessor id fun _ => processor) where
  toLasts := lasts_modifyCoroutine _ _ _
  counters := rfl
  others := fun _ different => .inl (coroutine_modifyCoroutine_other different _)
  own := ⟨processor, coroutine_modifyCoroutine known _, reached⟩

/-- What an attempt on a processor comes to, seen from the store. The conditions are carried over as
they are, one for success and one for failure. -/
theorem onProcessor_touches {α : Type} {attempt : Attempt Processor α} {store : Store}
    (known : store.Has id) (good : α → Processor → Processor → Prop)
    (bad : ScriptError → Processor → Processor → Prop)
    (ends : attempt.Ends (store.processor id) (fun result => good result (store.processor id))
      (fun error => bad error (store.processor id))) :
    (onProcessor id attempt).Ends store (fun result after => Touches id (good result) store after)
      (fun error after => Touches id (bad error) store after) := by
  rw [Attempt.Ends, onProcessor_eq]
  rw [Attempt.Ends] at ends
  split at ends
  next result processor reached =>
    rw [reached]
    exact touches_onProcessor known processor ends
  next error processor reached =>
    rw [reached]
    exact touches_onProcessor known processor ends

/-- The error of an attempt on a processor says the same there and in the store. -/
theorem onProcessor_ends {α : Type} {attempt : Attempt Processor α} {store : Store}
    (known : store.Has id) (good : α → Processor → Processor → Prop)
    (bad : Processor → Processor → Prop)
    (ends : attempt.Ends (store.processor id) (fun result => good result (store.processor id))
      (fun error after => bad (store.processor id) after ∧ error.isOwn = true)) :
    (onProcessor id attempt).Ends store (fun result after => Touches id (good result) store after)
      (fun error after => Touches id bad store after ∧ error.isOwn = true) := by
  refine (onProcessor_touches known good
    (fun error before after => bad before after ∧ error.isOwn = true)
    ends).mono (fun _ _ reached => reached) fun error after touches => ?_
  obtain ⟨_, _, _, own⟩ := touches.own
  exact ⟨touches.mono fun _ _ failed => failed.1, own⟩

end CoroutineVM.Store
