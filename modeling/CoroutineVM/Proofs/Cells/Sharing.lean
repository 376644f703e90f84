import CoroutineVM.Proofs.Cells.Makings
import CoroutineVM.Proofs.Cells.Steps
import CoroutineVM.Proofs.Cells.Visibility

/-!
# Cells are shared by capturing them

Code and host together cannot make two closures share a cell in any other way than by capturing an
upvalue, as long as the host makes no closures over cells itself. So a cell is only written to by
code that holds it, and whether two closures see what the other one writes can be told from how they
have been made.
-/

namespace CoroutineVM

open Attempt

variable {W : Type} {host : Host W} {chunk : Chunk}

/-! ### The makings of a run -/

/-- The closures that have been made, the last one first. -/
def makings (trace : List (Stage W)) : List Making :=
  trace.filterMap fun stage => stage.before.making?

/-- Nothing is made at rest. -/
theorem Machine.making_atRest {machine : Machine W} (rests : machine.atRest = true) :
    machine.making? = none := by
  obtain ⟨store, world, focus, pending⟩ := machine
  cases focus with
  | settled outcome => rfl
  | code id pointer => cases rests
  | host id event => cases rests

/-- The host supplies no closures with cells but such as have been made by the code before, and it
writes to no cell. -/
structure Stage.HandsBack (host : Host W) (trace : List (Stage W)) : Prop where
  closures : ∀ later stage earlier, trace = later ++ stage :: earlier →
    ∀ value ∈ stage.values host, ∀ closure, value.Contains closure →
      Known (makings earlier) closure.scope
  quiet : ∀ stage ∈ trace, ∀ cell value, stage.edit? host ≠ some (.writeCell cell value)

/-- What the host keeps to in a run it keeps to in every beginning of it. -/
theorem Stage.HandsBack.tail {last : Stage W} {trace : List (Stage W)}
    (hands : HandsBack host (last :: trace)) : HandsBack host trace where
  closures := fun later stage earlier split =>
    hands.closures (last :: later) stage earlier (congrArg (last :: ·) split)
  quiet := fun stage member => hands.quiet stage (List.mem_cons_of_mem last member)

/-- A scope that is known from some makings is known from more of them. -/
theorem Known.mono {makings others : List Making} {scope : Scope} (known : Known makings scope)
    (kept : ∀ making ∈ makings, making ∈ others) : Known others scope := by
  obtain none | ⟨making, member, same⟩ := known
  · exact .inl none
  · exact .inr ⟨making, kept making member, same⟩

/-- Closures have no cells or are among those that have been made. -/
def Regime.ofMakings (chunk : Chunk) (makings : List Making) : Regime where
  chunk := chunk
  closure := fun closure => Known makings closure.scope
  raised := fun _ => True
  single := False
  flat := False
  single_of_flat := False.elim
  raises := fun _ _ => trivial
  misses := fun _ _ _ => trivial

/-! ### One making -/

/-- Code is about to make a closure, after which the cells are these. -/
structure Machine.Prepares (machine : Machine W) (id : CoroutineId) (pointer : Nat)
    (making : Making) (cells : Array Value) : Prop where
  coding : machine.focus = .code id pointer
  fetched : machine.store.chunk.instruction? pointer =
    some (.makeClosure making.made.function making.captures)
  captured : mapEach (Store.capture id) making.captures machine.store =
    (.ok making.made.scope.cells, { machine.store with cells := cells })
  taken : Captures (machine.store.processor id) making.captures making.made.scope.cells
    machine.store.cells cells
  named : making.made.scope.id = machine.store.nextScope
  running : making.running =
    ((machine.store.processor id).frames.top?.map Frame.scope).getD ⟨0, []⟩

/-- A machine that is about to make a closure stands at the instruction, and all of its captures
succeed. -/
theorem Machine.prepares_of_making {machine : Machine W} {making : Making}
    (makes : machine.making? = some making) :
    ∃ id pointer cells, machine.Prepares id pointer making cells := by
  obtain ⟨store, world, focus, pending⟩ := machine
  cases focus with
  | code id pointer =>
    simp only [making?] at makes
    split at makes
    next function captures fetched =>
      split at makes
      next names after run =>
        cases makes
        obtain ⟨cells, rfl, taken⟩ := captures_of_run run
        exact ⟨id, pointer, cells, rfl, fetched, run, taken, rfl, rfl⟩
      next => cases makes
    next => cases makes
  | host id event => cases makes
  | settled outcome => cases makes

/-- Where code goes on after the instruction, a closure has been made; otherwise one of its captures
has failed, and with it the instruction. -/
theorem Machine.making_of_step {machine : Machine W} {id : CoroutineId}
    {pointer next function : Nat} {captures : List Capture}
    (coding : machine.focus = .code id pointer)
    (fetched : machine.store.chunk.instruction? pointer = some (.makeClosure function captures))
    (goes : (machine.step host).focus = .code id next) :
    ∃ making, machine.making? = some making ∧ making.captures = captures ∧
      making.made.function = function := by
  obtain ⟨store, world, focus, pending⟩ := machine
  obtain rfl : focus = .code id pointer := coding
  cases run : mapEach (Store.capture id) captures store with
  | mk result after =>
    cases result with
    | ok names =>
      refine ⟨⟨((store.processor id).frames.top?.map Frame.scope).getD ⟨0, []⟩, captures,
        ⟨function, ⟨after.nextScope, names⟩⟩⟩, ?_, rfl, rfl⟩
      simp only [making?, fetched, run]
    | error error =>
      have fails : Store.execute id (.makeClosure function captures) (pointer + 1) store =
          (.error error, after) := by
        change andThen (mapEach (Store.capture id) captures) _ store = _
        simp only [andThen, run]
      simp only [step, stepCode, fetched, fails] at goes
      cases goes

namespace Machine.Prepares

variable {machine : Machine W} {id : CoroutineId} {pointer : Nat} {making : Making}
  {cells : Array Value}

/-- The making happens in the scope of the top frame. -/
theorem runs (prepares : machine.Prepares id pointer making cells) {frame : Frame}
    (top : (machine.store.processor id).frames.top? = some frame) :
    making.running = frame.scope := by
  rw [prepares.running, top]
  rfl

/-- A cell that the running closure holds is named by that scope. -/
theorem held (prepares : machine.Prepares id pointer making cells) {place : Nat} {cell : CellId}
    (holds : (machine.store.processor id).heldCell? place = some cell) :
    making.running.cells[place]? = some cell := by
  obtain ⟨frame, top, found⟩ := Option.bind_eq_some_iff.mp holds
  rw [prepares.runs top, found]

/-- The names of its cells are those that a chronicle asks for: copies get new ones, each its own,
and what is shared is taken over. -/
theorem fits (prepares : machine.Prepares id pointer making cells) :
    making.Fits machine.store.cells.size cells.size where
  grows := by simpa using prepares.taken.grows.length_le
  length := prepares.taken.length_eq
  copies := fun index slot copies => by
    obtain ⟨cell, value, named, newer, known, _⟩ := prepares.taken.copied copies
    exact ⟨cell, named, newer, known⟩
  apart := fun _ _ _ _ copies copiesOther same => prepares.taken.apart copies copiesOther same
  shares := fun index place shares => by
    obtain ⟨cell, holds, named⟩ := prepares.taken.shared shares
    rw [named, prepares.held holds]

/-- What the step comes to: if all captures succeed the store has the cells that they have added,
and the next scope has been given away. -/
theorem step (prepares : machine.Prepares id pointer making cells) (host : Host W) :
    (machine.step host).store.cells = cells ∧
      (machine.step host).store.nextScope = machine.store.nextScope + 1 ∧
      ∀ next, machine.store.Has id → (machine.step host).focus = .code id next →
        ((machine.step host).store.processor id).values.toList =
          (machine.store.processor id).values.toList ++ [.closure making.made] := by
  obtain ⟨coding, fetched, captured, _, named, _⟩ := prepares
  obtain ⟨store, world, focus, pending⟩ := machine
  obtain rfl : focus = .code id pointer := coding
  obtain ⟨running, captures, function, scope, names⟩ := making
  dsimp only at fetched captured named
  subst named
  cases run : Store.execute id (.makeClosure function captures) (pointer + 1) store with
  | mk result after =>
    obtain ⟨sameCells, scopes, ended⟩ := execute_makeClosure captured run
    simp only [Machine.step, stepCode, fetched, run]
    obtain ⟨error, rfl⟩ | ⟨rfl, pushed⟩ := ended
    · exact ⟨sameCells, scopes, fun next _ goes => by cases goes⟩
    · exact ⟨sameCells, scopes, fun next known _ => pushed known⟩

end Machine.Prepares

/-! ### Runs -/

namespace Machine.Traces

variable {settings : Settings} {thread : ThreadId} {world : W} {trace : List (Stage W)}
  {machine : Machine W}

/-- Every closure of a run is one that has been made in it, the main body apart, if the host hands
back only what it has got. The regime is that of all makings of the run, so that the induction can
go on with a fixed one. -/
theorem obeys_ofMakings
    (traces : Machine.Traces host (.new (.initial chunk settings thread) world) trace machine)
    (hands : Stage.HandsBack host trace) : machine.Obeys (.ofMakings chunk (makings trace)) := by
  suffices all : machine.Obeys (.ofMakings chunk (makings trace)) ∧
      ∀ stage ∈ trace, stage.before.Obeys (.ofMakings chunk (makings trace)) from all.1
  refine Machine.Traces.obeys traces ?_ (fun flat => flat.elim) fun stage member _ making makes =>
    .inr ⟨making, List.mem_filterMap.mpr ⟨stage, member, makes⟩, rfl⟩
  intro later stage earlier split _
  have allowed : ∀ value ∈ stage.values host,
      (Regime.ofMakings chunk (makings trace)).Allows value := by
    intro value member closure inside
    refine (hands.closures later stage earlier split value member closure inside).mono ?_
    intro making among
    obtain ⟨other, older, makes⟩ := List.mem_filterMap.mp among
    refine List.mem_filterMap.mpr ⟨other, ?_, makes⟩
    exact split ▸ List.mem_append_right later (List.mem_cons_of_mem stage older)
  exact ⟨allowed, fun value placed => ⟨allowed value (stage.mem_of_placed placed), False.elim⟩,
    fun value cell => ⟨allowed value (stage.mem_of_cell cell), False.elim⟩, fun _ _ => trivial⟩

/-- Code runs on a coroutine of the store. -/
theorem known
    (traces : Machine.Traces host (.new (.initial chunk settings thread) world) trace machine)
    (id : CoroutineId) (pointer : Nat) (coding : machine.focus = .code id pointer) :
    machine.store.Has id :=
  (reachable_sound (guardsAllowed host _) ⟨world, traces.leads⟩).1.known coding

/-- The code that makes a closure runs in the scope of one that has been made before. The frame
belongs to a closure of the machine, and the regime of the makings holds of all of these. -/
theorem running
    (traces : Machine.Traces host (.new (.initial chunk settings thread) world) trace machine)
    (hands : Stage.HandsBack host trace) {id : CoroutineId} {pointer : Nat} {making : Making}
    {cells : Array Value} (prepares : machine.Prepares id pointer making cells) :
    Known (makings trace) making.running := by
  cases top : (machine.store.processor id).frames.top? with
  | none =>
    refine .inl ?_
    rw [prepares.running, top]
    rfl
  | some frame =>
    rw [prepares.runs top]
    rw [BoundedStack.top?_eq] at top
    exact (((traces.obeys_ofMakings hands).store.processors id).frames frame
      (List.mem_of_getLast? top)).closure

/-- The names of cells and scopes in a run are as its makings say. A step that makes nothing only
adds cells; one that does adds them for its captures and runs in a scope that is known from
before. -/
theorem chronicle
    (traces : Machine.Traces host (.new (.initial chunk settings thread) world) trace machine)
    (hands : Stage.HandsBack host trace) :
    Chronicle (makings trace) machine.store.cells.size machine.store.nextScope := by
  induction traces with
  | stays => exact .empty
  | @begins earlier before operation later traces rests inductionHypothesis =>
    have adds := before.extends_begin operation later (hands.quiet _ List.mem_cons_self)
    have same : makings (.begins before operation :: earlier) = makings earlier :=
      List.filterMap_cons_none (before.making_atRest rests)
    exact same ▸ (inductionHypothesis hands.tail).passes adds.size adds.scopes
  | @steps earlier before traces inductionHypothesis =>
    have soFar := inductionHypothesis hands.tail
    have quiet := hands.quiet _ List.mem_cons_self
    cases makes : before.making? with
    | none =>
      have same : makings (.steps before :: earlier) = makings earlier :=
        List.filterMap_cons_none makes
      have grows := Machine.step_grows traces.known quiet
      exact same ▸ soFar.passes grows.1 grows.2
    | some making =>
      have more : makings (.steps before :: earlier) = making :: makings earlier :=
        List.filterMap_cons_some makes
      obtain ⟨id, pointer, cells, prepares⟩ := Machine.prepares_of_making makes
      obtain ⟨same, scopes, _⟩ := prepares.step host
      rw [more, same, scopes]
      exact soFar.makes prepares.fits (traces.running hands.tail prepares) prepares.named

/-- The last stage of a run keeps what is in a cell unless code stores to it. The host does not, by
what is supposed of it. -/
theorem keeps_last {stage : Stage W}
    (traces :
      Machine.Traces host (.new (.initial chunk settings thread) world) (stage :: trace) machine)
    (hands : Stage.HandsBack host (stage :: trace)) :
    stage.before.store.cells.size ≤ machine.store.cells.size ∧
      ∀ cell < stage.before.store.cells.size, ¬ stage.before.StoresTo cell →
        machine.store.readCell cell = stage.before.store.readCell cell := by
  have quiet := hands.quiet stage List.mem_cons_self
  cases traces with
  | @begins _ before operation later traces rests =>
    have adds := before.extends_begin operation later quiet
    exact ⟨adds.size, fun cell there _ => adds.readCell there⟩
  | steps traces =>
    exact ⟨(Machine.step_grows traces.known quiet).1, fun cell there other =>
      Machine.step_readCell traces.known quiet there other⟩

/-- And so do all of them together, as long as no code in between stores to that cell. -/
theorem keeps {later earlier : List (Stage W)} {stage : Stage W}
    (traces : Machine.Traces host (.new (.initial chunk settings thread) world)
      (later ++ stage :: earlier) machine)
    (hands : Stage.HandsBack host (later ++ stage :: earlier)) :
    stage.before.store.cells.size ≤ machine.store.cells.size ∧
      ∀ cell < stage.before.store.cells.size,
        (∀ other ∈ later ++ [stage], ¬ other.before.StoresTo cell) →
          machine.store.readCell cell = stage.before.store.readCell cell := by
  induction later generalizing machine with
  | nil =>
    obtain ⟨size, kept⟩ := traces.keeps_last hands
    exact ⟨size, fun cell there others => kept cell there (others stage List.mem_cons_self)⟩
  | cons last later inductionHypothesis =>
    obtain ⟨size, kept⟩ := traces.keeps_last hands
    have before : Machine.Traces host _ ([] ++ last :: (later ++ stage :: earlier)) machine :=
      traces
    obtain ⟨older, keptBefore⟩ := inductionHypothesis before.earlier hands.tail
    refine ⟨Nat.le_trans older size, fun cell there others => ?_⟩
    obtain ⟨first, rest⟩ := List.forall_mem_cons.mp others
    exact (kept cell (Nat.lt_of_lt_of_le there older) first).trans (keptBefore cell there rest)

end Machine.Traces

/-! ### What is shared -/

/-- What it means that a closure has been made on a processor. -/
structure Machine.Makes (before after : Machine W) (id : CoroutineId) (making : Making) : Prop where
  /-- Upvalues are taken from the scope that the code runs in. -/
  runs : ∀ frame, (before.store.processor id).frames.top? = some frame →
    making.running = frame.scope
  length : making.made.scope.cells.length = making.captures.length
  /-- A local is copied to a cell of its own: one that has not been there before, that no other
  capture gets, and that holds what the local collapses to. -/
  copies : ∀ index slot : Nat, making.captures[index]? = some (.copyLocal slot) → ∃ cell value,
    making.made.scope.cells[index]? = some cell ∧ before.store.cells.size ≤ cell ∧
    cell < after.store.cells.size ∧
    (∀ other : Nat, making.made.scope.cells[other]? = some cell → other = index) ∧
    (Processor.loadLocal slot (before.store.processor id)).1 = .ok value ∧
    after.store.readCell cell = value.collapse
  /-- An upvalue is the very cell that the running scope has there. -/
  shares : ∀ index place : Nat, making.captures[index]? = some (.shareUpvalue place) → ∃ frame cell,
    (before.store.processor id).frames.top? = some frame ∧ frame.scope.cells[place]? = some cell ∧
    making.made.scope.cells[index]? = some cell
  pushes : (after.store.processor id).values.toList =
    (before.store.processor id).values.toList ++ [.closure making.made]

/-- A step that makes a closure makes it as the instruction says: with fresh cells for locals, which
hold what the locals held, and with the cells of the running closure for upvalues. -/
theorem Machine.Prepares.makes {before : Machine W} {id : CoroutineId} {pointer next : Nat}
    {making : Making} {cells : Array Value} {makings : List Making} {scopes : Nat}
    (prepares : before.Prepares id pointer making cells)
    (chronicle : Chronicle makings before.store.cells.size scopes)
    (running : Known makings making.running) (known : before.store.Has id)
    (goes : (before.step host).focus = .code id next) :
    Machine.Makes before (before.step host) id making := by
  obtain ⟨same, _, pushes⟩ := prepares.step host
  have fits := prepares.fits
  refine ⟨fun frame => prepares.runs, fits.length, ?_, ?_, pushes next known goes⟩
  · intro index slot copies
    obtain ⟨cell, value, named, newer, there, loaded, stored⟩ := prepares.taken.copied copies
    refine ⟨cell, value, named, newer, same ▸ there, fun other namedOther => ?_, loaded, ?_⟩
    · have inside : other < making.captures.length :=
        fits.length ▸ (List.getElem?_eq_some_iff.mp namedOther).1
      have captured := List.getElem?_eq_getElem inside
      cases capture : making.captures[other] with
      | copyLocal source =>
        exact (fits.apart index other slot source copies (capture ▸ captured)
          (named.trans namedOther.symm)).symm
      | shareUpvalue place =>
        -- The running scope has no cells but those of before.
        have shares := fits.shares other place (capture ▸ captured)
        exact absurd (chronicle.cells_lt running (shares.symm.trans namedOther))
          (Nat.not_lt_of_le newer)
    · rw [Store.readCell, same, stored, Option.getD_some]
  · intro index place shares
    obtain ⟨cell, holds, named⟩ := prepares.taken.shared shares
    obtain ⟨frame, top, found⟩ := Option.bind_eq_some_iff.mp holds
    exact ⟨frame, cell, top, found, named⟩

/-- How the closures of a run have their cells in common. -/
structure Machine.SharesCells (trace : List (Stage W)) (machine : Machine W) : Prop where
  /-- Every closure in the machine has the scope of one that has been made, or it has no cells. -/
  closures : ∀ closure, machine.Holds closure → Known (makings trace) closure.scope
  /-- One closure has been made with each scope. -/
  executions : (makings trace).Pairwise fun making other =>
    making.made.scope.id ≠ other.made.scope.id
  makes : ∀ before earlier id pointer function captures, trace = .steps before :: earlier →
    before.focus = .code id pointer →
    before.store.chunk.instruction? pointer = some (.makeClosure function captures) →
    machine.focus = .code id (pointer + 1) →
      ∃ making, before.making? = some making ∧ making.captures = captures ∧
        making.made.function = function ∧ Machine.Makes before machine id making
  /-- What is in a cell changes only if code stores to a cell that its scope holds. -/
  keeps : ∀ later stage earlier, trace = later ++ stage :: earlier →
    ∀ cell < stage.before.store.cells.size,
      (∀ other ∈ later ++ [stage], ¬ other.before.StoresTo cell) →
        machine.store.readCell cell = stage.before.store.readCell cell
  /-- Then that cell changes and a value is taken from the stack, and that is all. -/
  stores : ∀ before earlier id pointer index, trace = .steps before :: earlier →
    before.focus = .code id pointer →
    before.store.chunk.instruction? pointer = some (.storeUpvalue index) →
      ∃ result, Store.Stores id index (pointer + 1) before.store result machine.store ∧
        ∀ flow, result = .ok flow → machine.focus = .code id (pointer + 1)
  locals : ∀ before earlier id pointer slot, trace = .steps before :: earlier →
    before.focus = .code id pointer →
    before.store.chunk.instruction? pointer = some (.storeLocal slot) →
      machine.store.cells = before.store.cells
  /-- What is written through one place of a scope is seen through a place of another one exactly if
  both go back to the same capture of a local by the same making. -/
  sees : ∀ writer reader, Known (makings trace) writer → Known (makings trace) reader →
    ∀ i < writer.cells.length, ∀ j < reader.cells.length,
      (Sees machine.store.cells writer i reader j ↔ ∃ origin entry,
        Descends (makings trace) writer i origin entry ∧
          Descends (makings trace) reader j origin entry)
  /-- Otherwise it makes no difference there. -/
  overlooks : ∀ writer reader, Known (makings trace) writer → Known (makings trace) reader →
    ∀ i < writer.cells.length, ∀ j < reader.cells.length,
      (¬ ∃ origin entry, Descends (makings trace) writer i origin entry ∧
        Descends (makings trace) reader j origin entry) →
          Overlooks machine.store.cells writer i reader j

/-- In every run in which the host makes no closures over cells and writes to none, cells are shared
by capturing upvalues and in no other way. The makings of the run are a chronicle, which says where
cells come from; that every closure which runs is one of those made is the regime of the makings;
and a step writes to a cell only where code stores to an upvalue. -/
theorem captures_share_cells {settings : Settings} {thread : ThreadId} {world : W}
    {trace : List (Stage W)} {machine : Machine W}
    (traces : Machine.Traces host (.new (.initial chunk settings thread) world) trace machine)
    (hands : Stage.HandsBack host trace) : machine.SharesCells trace := by
  have chronicle := traces.chronicle hands
  refine ⟨fun closure holds => (traces.obeys_ofMakings hands).closure holds, chronicle.distinct.1,
    ?_, ?_, ?_, ?_, ?_, ?_⟩
  · rintro before earlier id pointer function captures rfl coding fetched goes
    cases traces with
    | steps traces =>
      obtain ⟨making, makes, rfl, rfl⟩ := Machine.making_of_step coding fetched goes
      obtain ⟨on, place, cells, prepares⟩ := Machine.prepares_of_making makes
      cases prepares.coding.symm.trans coding
      exact ⟨making, makes, rfl, rfl, prepares.makes (traces.chronicle hands.tail)
        (traces.running hands.tail prepares) (traces.known id pointer coding) goes⟩
  · rintro later stage earlier rfl
    exact (traces.keeps hands).2
  · rintro before earlier id pointer index rfl coding fetched
    cases traces with
    | steps traces => exact Machine.step_stores host (traces.known id pointer coding) coding fetched
  · rintro before earlier id pointer slot rfl coding fetched
    cases traces with
    | steps traces => exact Machine.step_storeLocal host coding fetched
  · intro writer reader knownWriter knownReader i insideWriter j insideReader
    have here := List.getElem?_eq_getElem insideWriter
    have there := List.getElem?_eq_getElem insideReader
    rw [sees_iff here there (chronicle.cells_lt knownWriter here)]
    exact chronicle.cell_eq_iff knownWriter knownReader here there
  · intro writer reader knownWriter knownReader i insideWriter j insideReader apart
    have here := List.getElem?_eq_getElem insideWriter
    have there := List.getElem?_eq_getElem insideReader
    exact overlooks_of_ne here there fun same =>
      apart ((chronicle.cell_eq_iff knownWriter knownReader here there).mp same)

/-- A main body whose closure makes another one that shares what it has captured. -/
def sharingChunk : Chunk where
  functions := #[⟨"main", 0, 0, false⟩, ⟨"outer", 4, 0, false⟩, ⟨"inner", 6, 0, false⟩]
  code := #[.literal .nil, .makeClosure 1 [.copyLocal 0], .call 0, .ret 1,
    .makeClosure 2 [.shareUpvalue 0], .ret 1, .loadUpvalue 0, .ret 1]

/-- The script after so many steps. -/
def sharingMachine : Nat → Machine Unit
  | 0 => .enter ((Operation.call .mainBody []).begin (.sample sharingChunk)) () []
  | steps + 1 => (sharingMachine steps).step .silent

/-- What has happened when both closures have been made. -/
def sharingTrace : List (Stage Unit) :=
  [.steps (sharingMachine 3), .steps (sharingMachine 2), .steps (sharingMachine 1),
    .steps (sharingMachine 0), .begins (.new (.sample sharingChunk) ()) (.call .mainBody [])]

/-- The inner closure sees what is written by the outer one. The run is followed up to the making of
the inner closure, and what the theorem says of any two closures is taken for these two. -/
theorem inner_closure_sees :
    let outer : Scope := ⟨0, [0]⟩
    let inner : Scope := ⟨1, [0]⟩
    let copying : Making := ⟨⟨0, []⟩, [.copyLocal 0], ⟨1, outer⟩⟩
    let sharing : Making := ⟨outer, [.shareUpvalue 0], ⟨2, inner⟩⟩
    Machine.Traces Host.silent (.new (.sample sharingChunk) ()) sharingTrace (sharingMachine 4) ∧
      Stage.HandsBack Host.silent sharingTrace ∧ (sharingMachine 4).SharesCells sharingTrace ∧
      makings sharingTrace = [sharing, copying] ∧
      Sees (sharingMachine 4).store.cells outer 0 inner 0 := by
  intro outer inner copying sharing
  have traces : Machine.Traces Host.silent (.new (.sample sharingChunk) ()) sharingTrace
      (sharingMachine 4) :=
    (Machine.Traces.stays.begins (.call .mainBody []) () rfl).steps.steps.steps.steps
  have stages : ∀ stage ∈ sharingTrace, (∃ before, stage = .steps before) ∨
      stage = .begins (.new (.sample sharingChunk) ()) (.call .mainBody []) := by
    simp [sharingTrace]
  have hands : Stage.HandsBack Host.silent sharingTrace := by
    constructor
    · intro later stage earlier split value supplied closure inside
      have member : stage ∈ sharingTrace := split ▸ List.mem_append_right later List.mem_cons_self
      obtain ⟨before, rfl⟩ | rfl := stages stage member
      · rw [(Stage.silent_steps before).1 value supplied] at inside
        cases inside
      · obtain rfl := List.mem_singleton.mp supplied
        cases inside
        exact .inl rfl
    · intro stage member cell value writes
      obtain ⟨before, rfl⟩ | rfl := stages stage member
      · rw [(Stage.silent_steps before).2.1] at writes
        cases writes
      · cases writes
  have recorded : makings sharingTrace = [⟨⟨0, [0]⟩, [.shareUpvalue 0], ⟨2, ⟨1, [0]⟩⟩⟩,
      ⟨⟨0, []⟩, [.copyLocal 0], ⟨1, ⟨0, [0]⟩⟩⟩] := by
    decide +kernel
  have shares := captures_share_cells traces hands
  refine ⟨traces, hands, shares, recorded, ?_⟩
  have earlier : copying ∈ [sharing, copying] := List.mem_cons_of_mem sharing List.mem_cons_self
  have later : sharing ∈ [sharing, copying] := List.mem_cons_self
  have copied : Descends [sharing, copying] outer 0 copying 0 := .copies earlier rfl
  have shared : Descends [sharing, copying] inner 0 copying 0 := .shares later rfl copied
  have sees := shares.sees outer inner
  rw [recorded] at sees
  exact (sees (.inr ⟨copying, earlier, rfl⟩) (.inr ⟨sharing, later, rfl⟩) 0 Nat.zero_lt_one 0
    Nat.zero_lt_one).mpr ⟨copying, 0, copied, shared⟩

end CoroutineVM
