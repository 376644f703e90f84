import CoroutineVM.Proofs.Cells.Effects
import CoroutineVM.Proofs.Contents.Machines

/-!
# Where cells come from

A new closure gets a cell for each of its captures: one that is added for it with a copy of a local,
or one that the running closure holds. So each place of a scope goes back, through the closures in
whose scopes the making closures ran, to one capture of one making that copied a local. `Descends`
follows this line, and `Chronicle` tells of a list of makings that they can have happened one after
the other, as far as the names of cells and scopes go. Two places of scopes name the same cell
exactly if they go back to the same capture of the same making.
-/

namespace CoroutineVM

open Attempt

/-! ### Captures -/

/-- What captures take, with the cells that there are before and after. -/
inductive Captures (processor : Processor) :
    List Capture → List CellId → Array Value → Array Value → Prop where
  | none (cells : Array Value) : Captures processor [] [] cells cells
  | copies {captures : List Capture} {names : List CellId} {cells after : Array Value} {slot : Nat}
      {value : Value} (found : (Processor.loadLocal slot processor).1 = .ok value)
      (rest : Captures processor captures names (cells.push value.collapse) after) :
      Captures processor (.copyLocal slot :: captures) (cells.size :: names) cells after
  | shares {captures : List Capture} {names : List CellId} {cells after : Array Value} {place : Nat}
      {cell : CellId} (holds : processor.heldCell? place = some cell)
      (rest : Captures processor captures names cells after) :
      Captures processor (.shareUpvalue place :: captures) (cell :: names) cells after

/-- Capturing a local adds one cell with what the local holds, or adds none if there is no such
local. -/
theorem copyLocal_cases (id : CoroutineId) (slot : Nat) (store : Store) :
    (∃ value, (Processor.loadLocal slot (store.processor id)).1 = .ok value ∧
        Store.capture id (.copyLocal slot) store =
          (.ok store.cells.size, { store with cells := store.cells.push value.collapse })) ∨
      ∃ error, Store.capture id (.copyLocal slot) store = (.error error, store) := by
  have loads := Store.onProcessor_eq id (Processor.loadLocal slot) store
  rw [Processor.loadLocal_snd, Store.modifyProcessor_same] at loads
  have copies : Store.capture id (.copyLocal slot) store =
      andThen (Store.onProcessor id (Processor.loadLocal slot))
        (fun value => Store.createCell value.collapse) store := rfl
  cases found : (Processor.loadLocal slot (store.processor id)).1 with
  | ok value =>
    rw [found] at loads
    exact .inl ⟨value, rfl, by simp only [copies, andThen, loads, Store.createCell]⟩
  | error error =>
    rw [found] at loads
    exact .inr ⟨error, by simp only [copies, andThen, loads]⟩

/-- Capturing an upvalue takes over the cell that the running closure holds and adds none. -/
theorem shareUpvalue_cases (id : CoroutineId) (place : Nat) (store : Store) :
    (∃ cell, (store.processor id).heldCell? place = some cell ∧
        Store.capture id (.shareUpvalue place) store = (.ok cell, store)) ∨
      ∃ error, Store.capture id (.shareUpvalue place) store = (.error error, store) := by
  have looks := Store.onProcessor_eq id (Processor.upvalueCell place) store
  obtain ⟨cell, holds, found⟩ | ⟨_, error, missed⟩ := (store.processor id).upvalueCell_cases place
  · rw [found, Store.modifyProcessor_same] at looks
    exact .inl ⟨cell, holds, looks⟩
  · rw [missed, Store.modifyProcessor_same] at looks
    exact .inr ⟨error, looks⟩

/-- Captures that succeed have added cells and done nothing else. The induction is on the list of
captures, over all stores, because each of them begins where the one before has left off. -/
theorem captures_of_run {store after : Store} {id : CoroutineId} {captures : List Capture}
    {names : List CellId} (run : mapEach (Store.capture id) captures store = (.ok names, after)) :
    ∃ cells, after = { store with cells := cells } ∧
      Captures (store.processor id) captures names store.cells cells := by
  induction captures generalizing store names with
  | nil =>
    cases run
    exact ⟨_, rfl, .none _⟩
  | cons capture captures inductionHypothesis =>
    change andThen (Store.capture id capture) (fun name =>
      andThen (mapEach (Store.capture id) captures) fun names => succeed (name :: names)) store =
        _ at run
    have fails : ∀ error, Store.capture id capture store ≠ (.error error, store) := by
      intro error failed
      simp only [andThen, failed] at run
      cases run
    -- The rest is captured in a store that differs in its cells.
    have others : ∀ {name : CellId} {middle : Store},
        Store.capture id capture store = (.ok name, middle) →
          ∃ rest, names = name :: rest ∧
            mapEach (Store.capture id) captures middle = (.ok rest, after) := by
      intro name middle captured
      simp only [andThen, captured] at run
      split at run
      next rest last remaining =>
        cases run
        exact ⟨rest, rfl, remaining⟩
      next => cases run
    cases capture with
    | copyLocal slot =>
      obtain ⟨value, found, captured⟩ | ⟨error, failed⟩ := copyLocal_cases id slot store
      · obtain ⟨rest, rfl, remaining⟩ := others captured
        obtain ⟨cells, rfl, taken⟩ := inductionHypothesis remaining
        exact ⟨cells, rfl, .copies found taken⟩
      · exact absurd failed (fails error)
    | shareUpvalue place =>
      obtain ⟨cell, holds, captured⟩ | ⟨error, failed⟩ := shareUpvalue_cases id place store
      · obtain ⟨rest, rfl, remaining⟩ := others captured
        obtain ⟨cells, rfl, taken⟩ := inductionHypothesis remaining
        exact ⟨cells, rfl, .shares holds taken⟩
      · exact absurd failed (fails error)

/-- A new closure names the cells that its captures have taken, in a scope that nobody has yet. It
is pushed if there is room. -/
theorem execute_makeClosure {store middle after : Store} {id : CoroutineId}
    {captures : List Capture} {names : List CellId} {function next : Nat}
    {result : Except ScriptError Flow}
    (captured : mapEach (Store.capture id) captures store = (.ok names, middle))
    (run : Store.execute id (.makeClosure function captures) next store = (result, after)) :
    after.cells = middle.cells ∧ after.nextScope = middle.nextScope + 1 ∧
      ((∃ error, result = .error error) ∨ result = .ok (.goto next) ∧
        (middle.Has id → (after.processor id).values.toList = (middle.processor id).values.toList ++
          [.closure ⟨function, ⟨middle.nextScope, names⟩⟩])) := by
  let closed : Store := { middle with nextScope := middle.nextScope + 1 }
  let made : Value := .closure ⟨function, ⟨middle.nextScope, names⟩⟩
  have pushes := Store.onProcessor_eq id (Processor.push made) closed
  change andThen (mapEach (Store.capture id) captures) (fun names =>
    andThen (Store.createClosure function names) fun made =>
      andThen (Store.onProcessor id (Processor.push (.closure made)))
        fun _ => succeed (Flow.goto next)) store = _ at run
  simp only [andThen, captured, Store.createClosure] at run
  obtain room | ⟨_, error, refused⟩ := (closed.processor id).push_cases made
  · rw [room] at pushes
    rw [pushes] at run
    cases run
    exact ⟨rfl, rfl, .inr ⟨rfl, fun known => Store.values_addTop known made⟩⟩
  · rw [refused, Store.modifyProcessor_same] at pushes
    rw [pushes] at run
    obtain ⟨rfl, rfl⟩ := Prod.mk.inj run
    exact ⟨rfl, rfl, .inl ⟨error, rfl⟩⟩

namespace Captures

variable {processor : Processor} {captures : List Capture} {names : List CellId}
  {cells after : Array Value}

/-- There is one cell for each capture. -/
theorem length_eq (taken : Captures processor captures names cells after) :
    names.length = captures.length := by
  induction taken with
  | none => rfl
  | copies found rest inductionHypothesis => exact congrArg Nat.succ inductionHypothesis
  | shares holds rest inductionHypothesis => exact congrArg Nat.succ inductionHypothesis

/-- Cells are added at the end, so that those which were there keep their names. -/
theorem grows (taken : Captures processor captures names cells after) :
    cells.toList <+: after.toList := by
  induction taken with
  | none => exact List.prefix_rfl
  | copies found rest inductionHypothesis =>
    rw [Array.toList_push] at inductionHypothesis
    exact (List.prefix_append _ _).trans inductionHypothesis
  | shares holds rest inductionHypothesis => exact inductionHypothesis

/-- A copy of a local is in a cell that has been added for it. Captures that come later add cells
behind it, so that it keeps its name and what it holds. -/
theorem copied (taken : Captures processor captures names cells after) {index slot : Nat}
    (copies : captures[index]? = some (.copyLocal slot)) :
    ∃ cell value, names[index]? = some cell ∧ cells.size ≤ cell ∧ cell < after.size ∧
      (Processor.loadLocal slot processor).1 = .ok value ∧ after[cell]? = some value.collapse := by
  induction taken generalizing index with
  | none => cases copies
  | @copies captures names cells after own value found rest inductionHypothesis =>
    cases index with
    | zero =>
      cases copies
      have first : after[cells.size]? = some value.collapse := by
        obtain ⟨added, split⟩ := rest.grows
        rw [← Array.getElem?_toList, ← split, Array.toList_push, List.append_assoc,
          List.getElem?_append_right (by simp)]
        simp
      refine ⟨cells.size, value, rfl, Nat.le_refl _, ?_, found, first⟩
      exact (Array.getElem?_eq_some_iff.mp first).1
    | succ index =>
      obtain ⟨cell, other, named, newer, known, loaded, stored⟩ := inductionHypothesis copies
      refine ⟨cell, other, named, ?_, known, loaded, stored⟩
      rw [Array.size_push] at newer
      exact Nat.le_of_succ_le newer
  | shares holds rest inductionHypothesis =>
    cases index with
    | zero => cases copies
    | succ index => exact inductionHypothesis copies

/-- An upvalue is taken over as the cell that it is. -/
theorem shared (taken : Captures processor captures names cells after) {index place : Nat}
    (shares : captures[index]? = some (.shareUpvalue place)) :
    ∃ cell, processor.heldCell? place = some cell ∧ names[index]? = some cell := by
  induction taken generalizing index with
  | none => cases shares
  | copies found rest inductionHypothesis =>
    cases index with
    | zero => cases shares
    | succ index => exact inductionHypothesis shares
  | @shares captures names cells after own cell holds rest inductionHypothesis =>
    cases index with
    | zero =>
      cases shares
      exact ⟨cell, holds, rfl⟩
    | succ index => exact inductionHypothesis shares

/-- No two locals are copied to one cell, since each copy is added behind all cells that were
there. -/
theorem apart (taken : Captures processor captures names cells after) {index other slot place : Nat}
    (copies : captures[index]? = some (.copyLocal slot))
    (copiesOther : captures[other]? = some (.copyLocal place))
    (same : names[index]? = names[other]?) :
    index = other := by
  induction taken generalizing index other with
  | none => cases copies
  | @copies captures names cells after own value found rest inductionHypothesis =>
    -- The first cell is older than those of the copies after it.
    have newer : ∀ {index slot : Nat}, captures[index]? = some (.copyLocal slot) →
        names[index]? ≠ some cells.size := by
      intro index slot copies named
      obtain ⟨cell, _, found, newer, _⟩ := rest.copied copies
      rw [Array.size_push] at newer
      cases named.symm.trans found
      exact absurd newer (Nat.not_succ_le_self _)
    cases index with
    | zero =>
      cases other with
      | zero => rfl
      | succ other => exact absurd same.symm (newer copiesOther)
    | succ index =>
      cases other with
      | zero => exact absurd same (newer copies)
      | succ other => exact congrArg Nat.succ (inductionHypothesis copies copiesOther same)
  | shares holds rest inductionHypothesis =>
    cases index with
    | zero => cases copies
    | succ index =>
      cases other with
      | zero => cases copiesOther
      | succ other => exact congrArg Nat.succ (inductionHypothesis copies copiesOther same)

end Captures

/-! ### Makings one after the other -/

/-- The scope has no cells, or a closure has been made with it. -/
def Known (makings : List Making) (scope : Scope) : Prop :=
  scope.cells = [] ∨ ∃ making ∈ makings, making.made.scope = scope

/-- How the names of the cells in a new scope are related to its captures, where the cells are so
many before and after. -/
structure Making.Fits (making : Making) (before after : Nat) : Prop where
  grows : before ≤ after
  length : making.made.scope.cells.length = making.captures.length
  copies : ∀ index slot : Nat, making.captures[index]? = some (.copyLocal slot) →
    ∃ cell, making.made.scope.cells[index]? = some cell ∧ before ≤ cell ∧ cell < after
  apart : ∀ index other slot place : Nat, making.captures[index]? = some (.copyLocal slot) →
    making.captures[other]? = some (.copyLocal place) →
    making.made.scope.cells[index]? = making.made.scope.cells[other]? → index = other
  shares : ∀ index place : Nat, making.captures[index]? = some (.shareUpvalue place) →
    making.made.scope.cells[index]? = making.running.cells[place]?

/-- The makings can have happened, the last one first, while so many cells and scopes have come to
be. -/
inductive Chronicle : List Making → Nat → Nat → Prop where
  | empty : Chronicle [] 0 0
  | passes {makings : List Making} {cells scopes laterCells laterScopes : Nat}
      (chronicle : Chronicle makings cells scopes) (more : cells ≤ laterCells)
      (newer : scopes ≤ laterScopes) : Chronicle makings laterCells laterScopes
  | makes {making : Making} {makings : List Making} {cells scopes laterCells : Nat}
      (chronicle : Chronicle makings cells scopes) (fits : making.Fits cells laterCells)
      (known : Known makings making.running) (named : making.made.scope.id = scopes) :
      Chronicle (making :: makings) laterCells (scopes + 1)

/-- The place `index` of a scope goes back to the capture `entry` of a making that has copied a
local. -/
inductive Descends (makings : List Making) : Scope → Nat → Making → Nat → Prop where
  | copies {making : Making} {index slot : Nat} (member : making ∈ makings)
      (copies : making.captures[index]? = some (.copyLocal slot)) :
      Descends makings making.made.scope index making index
  | shares {making origin : Making} {index place entry : Nat} (member : making ∈ makings)
      (shares : making.captures[index]? = some (.shareUpvalue place))
      (descends : Descends makings making.running place origin entry) :
      Descends makings making.made.scope index origin entry

/-- A line of captures does not depend on what is made later. -/
theorem Descends.cons {makings : List Making} {scope : Scope} {index entry : Nat} {origin : Making}
    (descends : Descends makings scope index origin entry) (making : Making) :
    Descends (making :: makings) scope index origin entry := by
  induction descends with
  | copies member copies => exact .copies (List.mem_cons_of_mem _ member) copies
  | shares member shares descends inductionHypothesis =>
    exact .shares (List.mem_cons_of_mem _ member) shares inductionHypothesis

namespace Chronicle

variable {makings : List Making} {cells scopes : Nat} {making other : Making} {scope : Scope}

/-- Each making of a chronicle had its own number of cells before and after it, and there are no
fewer now. The induction is on the chronicle, of which later parts only add cells. -/
theorem fits (chronicle : Chronicle makings cells scopes) (member : making ∈ makings) :
    ∃ before after, making.Fits before after ∧ after ≤ cells := by
  induction chronicle with
  | empty => cases member
  | passes chronicle more newer inductionHypothesis =>
    obtain ⟨before, after, fits, known⟩ := inductionHypothesis member
    exact ⟨before, after, fits, Nat.le_trans known more⟩
  | makes chronicle fits known named inductionHypothesis =>
    obtain rfl | member := List.mem_cons.mp member
    · exact ⟨_, _, fits, Nat.le_refl _⟩
    · obtain ⟨before, after, older, before⟩ := inductionHypothesis member
      exact ⟨_, after, older, Nat.le_trans before fits.grows⟩

/-- Scopes name cells that there are. A making names those that it has added itself and some of the
scope in which it ran, for which this is known already. -/
theorem cells_lt (chronicle : Chronicle makings cells scopes) (known : Known makings scope)
    {index : Nat} {cell : CellId} (found : scope.cells[index]? = some cell) : cell < cells := by
  induction chronicle generalizing scope index with
  | empty =>
    obtain none | ⟨making, member, _⟩ := known
    · simp [none] at found
    · cases member
  | passes chronicle more newer inductionHypothesis =>
    exact Nat.lt_of_lt_of_le (inductionHypothesis known found) more
  | @makes making makings cells scopes laterCells chronicle fits running named
      inductionHypothesis =>
    have older : ∀ {scope index}, Known makings scope → scope.cells[index]? = some cell →
        cell < laterCells :=
      fun known found => Nat.lt_of_lt_of_le (inductionHypothesis known found) fits.grows
    obtain none | ⟨maker, member, rfl⟩ := known
    · simp [none] at found
    · obtain rfl | member := List.mem_cons.mp member
      · have inside : index < maker.captures.length :=
          fits.length ▸ (List.getElem?_eq_some_iff.mp found).1
        cases captured : maker.captures[index] with
        | copyLocal slot =>
          obtain ⟨own, named, _, known⟩ := fits.copies index slot
            (List.getElem?_eq_some_iff.mpr ⟨inside, captured⟩)
          cases found.symm.trans named
          exact known
        | shareUpvalue place =>
          have shares := fits.shares index place (List.getElem?_eq_some_iff.mpr ⟨inside, captured⟩)
          exact older running (shares.symm.trans found)
      · exact older (.inr ⟨maker, member, rfl⟩) found

/-- No two closures are made with the same scope, since each making takes the next name for its
own. -/
theorem distinct (chronicle : Chronicle makings cells scopes) :
    makings.Pairwise (fun making other => making.made.scope.id ≠ other.made.scope.id) ∧
      ∀ making ∈ makings, making.made.scope.id < scopes := by
  induction chronicle with
  | empty => exact ⟨.nil, fun _ member => by cases member⟩
  | passes chronicle more newer inductionHypothesis =>
    exact ⟨inductionHypothesis.1, fun making member =>
      Nat.lt_of_lt_of_le (inductionHypothesis.2 making member) newer⟩
  | makes chronicle fits known named inductionHypothesis =>
    obtain ⟨apart, older⟩ := inductionHypothesis
    refine ⟨List.pairwise_cons.mpr ⟨fun other member => ?_, apart⟩,
      List.forall_mem_cons.mpr ⟨named ▸ Nat.lt_succ_self _, fun other member => ?_⟩⟩
    · exact named ▸ (older other member).ne'
    · exact Nat.lt_succ_of_lt (older other member)

/-- A cell is added for one capture of one making. The last making adds behind all cells of those
before it, so that two makings cannot both have added it, and within one making the copies are
apart. -/
theorem owner (chronicle : Chronicle makings cells scopes) {index place slot source : Nat}
    {cell : CellId} (member : making ∈ makings) (memberOther : other ∈ makings)
    (copies : making.captures[index]? = some (.copyLocal slot))
    (copiesOther : other.captures[place]? = some (.copyLocal source))
    (found : making.made.scope.cells[index]? = some cell)
    (foundOther : other.made.scope.cells[place]? = some cell) : making = other ∧ index = place := by
  induction chronicle with
  | empty => cases member
  | passes chronicle more newer inductionHypothesis => exact inductionHypothesis member memberOther
  | @makes last makings cells scopes laterCells chronicle fits running named inductionHypothesis =>
    -- What the last making has added is not among the cells of before.
    have newer : ∀ {index slot : Nat}, last.captures[index]? = some (.copyLocal slot) →
        last.made.scope.cells[index]? = some cell → cells ≤ cell := by
      intro index slot copies found
      obtain ⟨own, named, newer, _⟩ := fits.copies index slot copies
      cases found.symm.trans named
      exact newer
    have older : ∀ {maker : Making} {index : Nat}, maker ∈ makings →
        maker.made.scope.cells[index]? = some cell → cell < cells :=
      fun member found => chronicle.cells_lt (.inr ⟨_, member, rfl⟩) found
    obtain rfl | earlier := List.mem_cons.mp member
    · obtain rfl | earlierOther := List.mem_cons.mp memberOther
      · exact ⟨rfl, fits.apart index place slot source copies copiesOther
          (found.trans foundOther.symm)⟩
      · exact absurd (older earlierOther foundOther) (Nat.not_lt_of_le (newer copies found))
    · obtain rfl | earlierOther := List.mem_cons.mp memberOther
      · exact absurd (older earlier found) (Nat.not_lt_of_le (newer copiesOther foundOther))
      · exact inductionHypothesis earlier earlierOther

/-- Every place of a scope goes back to a local. The last making has copied one itself or has taken
over a place of the scope in which it ran, and that scope is known from earlier makings. -/
theorem origin (chronicle : Chronicle makings cells scopes) (known : Known makings scope)
    {index : Nat} (inside : index < scope.cells.length) :
    ∃ origin entry, Descends makings scope index origin entry := by
  induction chronicle generalizing scope index with
  | empty =>
    obtain none | ⟨making, member, _⟩ := known
    · simp [none] at inside
    · cases member
  | passes chronicle more newer inductionHypothesis => exact inductionHypothesis known inside
  | @makes last makings cells scopes laterCells chronicle fits running named inductionHypothesis =>
    obtain none | ⟨making, member, rfl⟩ := known
    · simp [none] at inside
    obtain rfl | member := List.mem_cons.mp member
    · have captures : index < making.captures.length := fits.length ▸ inside
      have captured : making.captures[index]? = some making.captures[index] :=
        List.getElem?_eq_getElem captures
      cases capture : making.captures[index] with
      | copyLocal slot =>
        exact ⟨making, index, .copies List.mem_cons_self (capture ▸ captured)⟩
      | shareUpvalue place =>
        have shares : making.captures[index]? = some (.shareUpvalue place) := capture ▸ captured
        have same := fits.shares index place shares
        rw [List.getElem?_eq_getElem inside] at same
        have held : place < making.running.cells.length :=
          (List.getElem?_eq_some_iff.mp same.symm).1
        obtain ⟨origin, entry, descends⟩ := inductionHypothesis running held
        exact ⟨origin, entry, .shares List.mem_cons_self shares (descends.cons making)⟩
    · obtain ⟨origin, entry, descends⟩ := inductionHypothesis (.inr ⟨making, member, rfl⟩) inside
      exact ⟨origin, entry, descends.cons last⟩

/-- A place names the cell of the capture that it goes back to. -/
theorem descends_cell (chronicle : Chronicle makings cells scopes) {index entry : Nat}
    {origin : Making} (descends : Descends makings scope index origin entry) :
    origin ∈ makings ∧ (∃ slot, origin.captures[entry]? = some (.copyLocal slot)) ∧
      scope.cells[index]? = origin.made.scope.cells[entry]? := by
  induction descends with
  | copies member copies => exact ⟨member, ⟨_, copies⟩, rfl⟩
  | shares member shares descends inductionHypothesis =>
    obtain ⟨before, after, fits, _⟩ := chronicle.fits member
    exact ⟨inductionHypothesis.1, inductionHypothesis.2.1,
      (fits.shares _ _ shares).trans inductionHypothesis.2.2⟩

/-- Two places name the same cell exactly if they go back to the same capture of the same making.
Both go back to some copy, and a cell is added for one copy only. -/
theorem cell_eq_iff (chronicle : Chronicle makings cells scopes) {first second : Scope}
    (knownFirst : Known makings first) (knownSecond : Known makings second) {i j : Nat}
    {written read : CellId} (here : first.cells[i]? = some written)
    (there : second.cells[j]? = some read) :
    written = read ↔ ∃ origin entry,
      Descends makings first i origin entry ∧ Descends makings second j origin entry := by
  constructor
  · rintro rfl
    obtain ⟨origin, entry, descends⟩ := chronicle.origin knownFirst
      (List.getElem?_eq_some_iff.mp here).1
    obtain ⟨other, place, descendsOther⟩ := chronicle.origin knownSecond
      (List.getElem?_eq_some_iff.mp there).1
    obtain ⟨member, ⟨slot, copies⟩, cell⟩ := chronicle.descends_cell descends
    obtain ⟨memberOther, ⟨source, copiesOther⟩, cellOther⟩ := chronicle.descends_cell descendsOther
    obtain ⟨rfl, rfl⟩ := chronicle.owner member memberOther copies copiesOther
      (cell.symm.trans here) (cellOther.symm.trans there)
    exact ⟨origin, entry, descends, descendsOther⟩
  · rintro ⟨origin, entry, descends, descendsOther⟩
    have cell := (chronicle.descends_cell descends).2.2
    have cellOther := (chronicle.descends_cell descendsOther).2.2
    exact Option.some.inj (here.symm.trans (cell.trans (cellOther.symm.trans there)))

end Chronicle

end CoroutineVM
