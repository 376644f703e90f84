import CoroutineVM.Proofs.Cells.Effects
import CoroutineVM.Proofs.Machine.Writing
import CoroutineVM.Proofs.Table

/-!
# Globals are shared

The globals are a table, written to by code of any processor and by the host, while a function of
the host runs and between operations. Every stage of a run does one deed to the tables or none. So
the tables of a run are those that its deeds make, and whoever reads a global gets what has been set
for it last, whoever has set it.
-/

namespace CoroutineVM

variable {W : Type} {host : Host W}

/-! ### Deeds of a run -/

/-- The value that is taken from the stack next, unless the window is empty. -/
def Processor.atHand? (processor : Processor) : Option Value :=
  if processor.values.height ≤ processor.base then none else processor.values.top?

/-- What a change does to the tables. Nobody has a reference to a table that does not exist. -/
def Edit.deed? (tables : Tables) : Edit → Option TableDeed
  | .createTable => some .create
  | .setEntry id name value => if tables.Has id then some (.set id name value) else none
  | _ => none

/-- The name of a global that code is about to store, with its value. -/
def Machine.stored? (machine : Machine W) : Option (String × Value) :=
  match machine.focus with
  | .code id pointer =>
    match machine.store.chunk.instruction? pointer with
    | some (.storeGlobal name) => (machine.store.processor id).atHand?.map (name, ·)
    | _ => none
  | _ => none

namespace Stage

/-- The name of a global that code stores at a stage, with its value. -/
def stored? : Stage W → Option (String × Value)
  | begins _ _ => none
  | steps before => before.stored?

/-- What code or the host does to the tables at a stage. -/
def deed? (host : Host W) (stage : Stage W) : Option TableDeed :=
  match stage.stored? with
  | some (name, value) => some (.set Store.globals name value)
  | none => (stage.change? host).bind (·.deed? stage.before.store.tables)

end Stage

/-- The deeds of a run, the last one first. The table of the globals is made before everything
else. -/
def tableDeeds (host : Host W) (trace : List (Stage W)) : List TableDeed :=
  trace.filterMap (Stage.deed? host) ++ [.create]

/-- The deed of a stage, if it does one, comes before those of the stages that it follows. -/
theorem tableDeeds_cons (host : Host W) (stage : Stage W) (trace : List (Stage W)) :
    tableDeeds host (stage :: trace) = (stage.deed? host).toList ++ tableDeeds host trace := by
  rw [tableDeeds, List.filterMap_cons]
  cases stage.deed? host <;> rfl

/-- What a global is when this has happened: what has been set for it last, collapsed. -/
def lastGlobal (host : Host W) (trace : List (Stage W)) (name : String) : Value :=
  Table.told (lastSet? Store.globals name (tableDeeds host trace))

/-! ### Instructions -/

namespace Processor

/-- What is at hand is what the next pop takes: it lies on top and not below the base. -/
theorem pop_of_atHand {processor : Processor} {value : Value}
    (there : processor.atHand? = some value) :
    pop processor = (.ok value, processor.dropTop) := by
  rw [atHand?] at there
  split at there
  next => cases there
  next inside => simp only [pop, inside, if_false, there, dropTop]

/-- Where nothing is at hand a pop fails, be it that the stack is empty or that its top lies below
the base, and it changes nothing. -/
theorem pop_of_nothing {processor : Processor} (nothing : processor.atHand? = none) :
    ∃ error, pop processor = (.error error, processor) := by
  obtain ⟨value, top, _⟩ | ⟨_, refused⟩ := processor.pop_cases
  · rw [atHand?] at nothing
    split at nothing
    next empty => exact ⟨_, if_pos empty⟩
    next => exact absurd (top.symm.trans nothing) (Option.some_ne_none value)
  · exact refused

end Processor

namespace Store

variable {store : Store} {id : CoroutineId}

/-- The value at hand is stored. -/
theorem execute_storeGlobal {value : Value} (there : (store.processor id).atHand? = some value)
    (name : String) (next : Nat) : execute id (.storeGlobal name) next store =
      (.ok (.goto next), (store.dropTop id).setGlobal name value) := by
  have pops : onProcessor id Processor.pop store = (.ok value, store.dropTop id) := by
    rw [onProcessor_eq, Processor.pop_of_atHand there]
    rfl
  exact Attempt.bind_of_ok pops

/-- A global is not set where no value is at hand for it. -/
theorem execute_storeGlobal_of_nothing (nothing : (store.processor id).atHand? = none)
    (name : String) (next : Nat) :
    ∃ error, execute id (.storeGlobal name) next store = (.error error, store) := by
  obtain ⟨error, refused⟩ := Processor.pop_of_nothing nothing
  have pops : onProcessor id Processor.pop store = (.error error, store) := by
    rw [onProcessor_eq, refused, modifyProcessor_same]
  exact ⟨error, Attempt.bind_of_error pops⟩

/-- What the globals have is put on the stack, if there is room for it. -/
theorem execute_loadGlobal (store : Store) (id : CoroutineId) (name : String) (next : Nat) :
    execute id (.loadGlobal name) next store =
      if (store.processor id).values.isFull then
        (.error (.stackOverflow (store.processor id).values.capacity), store)
      else (.ok (.goto next), store.addTop id (store.getGlobal name)) := by
  change (onProcessor id (Processor.push (store.getGlobal name)) >>=
    fun _ => pure (Flow.goto next)) store = _
  have pushes := onProcessor_eq id (Processor.push (store.getGlobal name)) store
  split
  next full =>
    have refused : Processor.push (store.getGlobal name) (store.processor id) =
        (.error (.stackOverflow (store.processor id).values.capacity), store.processor id) :=
      if_pos full
    rw [refused, modifyProcessor_same] at pushes
    exact Attempt.bind_of_error pushes
  next room =>
    have pushed : Processor.push (store.getGlobal name) (store.processor id) =
        (.ok (), (store.processor id).addTop (store.getGlobal name)) := if_neg room
    rw [pushed] at pushes
    exact Attempt.bind_of_ok pushes

/-- The tables of a store are all that matters to those of a later one. -/
theorem lenient_tables : Lenient fun before after => after.tables = before.tables where
  same := fun tables _ _ => tables
  trans := fun left right => right.trans left
  createCell := fun _ _ => rfl
  createScope := fun _ => rfl

/-- A change that the host makes by hand does its deed, if there is one. Edits that are refused, and
those of anything but tables, leave the tables alone. -/
theorem tables_edit (store : Store) (change : Edit) :
    (store.edit change).tables = store.tables.after (change.deed? store.tables) := by
  cases change with
  | createTable => rfl
  | setEntry table name value =>
    rw [Edit.deed?]
    split
    next => rfl
    next unknown => exact Tables.set_unknown unknown name value
  | writeCell cell value => rfl
  | _ => exact relates_edit lenient_tables store _ fun writing => by cases writing

end Store

/-! ### Stages -/

namespace Machine

variable {machine : Machine W} {id : CoroutineId} {pointer : Nat} {name : String}

/-- Code that stands at the instruction stores what is at hand, if anything is. -/
theorem stored?_of_code (coding : machine.focus = .code id pointer)
    (fetched : machine.store.chunk.instruction? pointer = some (.storeGlobal name)) :
    machine.stored? = (machine.store.processor id).atHand?.map (name, ·) := by
  simp only [stored?, coding, fetched]

/-- Nothing is stored by a machine that does not stand at the instruction. -/
theorem stored?_of_other (other : ∀ id pointer name, machine.focus = .code id pointer →
    machine.store.chunk.instruction? pointer ≠ some (.storeGlobal name)) :
      machine.stored? = none := by
  rw [stored?]
  split
  next id pointer coding =>
    split
    next name fetched => exact absurd fetched (other id pointer name coding)
    next => rfl
  next => rfl

/-- When code stores a global, it goes on without the value. -/
theorem step_storeGlobal (host : Host W) {value : Value} (coding : machine.focus = .code id pointer)
    (fetched : machine.store.chunk.instruction? pointer = some (.storeGlobal name))
    (there : (machine.store.processor id).atHand? = some value) :
    machine.step host = { machine with
      store := (machine.store.dropTop id).setGlobal name value,
      focus := .code id (pointer + 1) } := by
  obtain ⟨store, world, focus, pending⟩ := machine
  obtain rfl : focus = .code id pointer := coding
  simp only [step, stepCode, fetched, Store.execute_storeGlobal there]

/-- The step that would set a global changes the store in no way if no value is at hand for it. -/
theorem step_storeGlobal_of_nothing (host : Host W) (coding : machine.focus = .code id pointer)
    (fetched : machine.store.chunk.instruction? pointer = some (.storeGlobal name))
    (nothing : (machine.store.processor id).atHand? = none) :
    (machine.step host).store = machine.store := by
  obtain ⟨store, world, focus, pending⟩ := machine
  obtain rfl : focus = .code id pointer := coding
  obtain ⟨error, refused⟩ := Store.execute_storeGlobal_of_nothing nothing name (pointer + 1)
  simp only [step, stepCode, fetched, refused]

/-- When code loads a global, it goes on with one more value, or it fails. -/
theorem step_loadGlobal (host : Host W) (coding : machine.focus = .code id pointer)
    (fetched : machine.store.chunk.instruction? pointer = some (.loadGlobal name)) :
    machine.step host =
      if (machine.store.processor id).values.isFull then { machine with
        focus := .settled (.error (.stackOverflow (machine.store.processor id).values.capacity)) }
      else { machine with
        store := machine.store.addTop id (machine.store.getGlobal name)
        focus := .code id (pointer + 1) } := by
  obtain ⟨store, world, focus, pending⟩ := machine
  obtain rfl : focus = .code id pointer := coding
  simp only [step, stepCode, fetched, Store.execute_loadGlobal]
  by_cases full : (store.processor id).values.isFull = true
  · simp only [full, if_true]
  · simp only [full, if_false, Bool.false_eq_true]

/-- What the host asks for is carried out at once. -/
theorem step_change (host : Host W) {change : Edit}
    (asked : (Stage.steps machine).change? host = some change) :
    (machine.step host).store = machine.store.edit change := by
  obtain ⟨request, wanted, asked⟩ := Option.bind_eq_some_iff.mp asked
  obtain ⟨store, world, focus, pending⟩ := machine
  cases focus with
  | host on event =>
    obtain rfl := Option.some.inj wanted
    rw [step]
    generalize host.respond on event store world = response at asked ⊢
    obtain ⟨later, request⟩ := response
    cases request <;> cases asked <;> rfl
  | code on pointer => cases wanted
  | settled outcome => cases wanted

/-- The step of the instruction does its deed: it sets the global if a value is at hand and leaves
the tables alone if none is. -/
theorem tables_storeGlobal (host : Host W) (coding : machine.focus = .code id pointer)
    (fetched : machine.store.chunk.instruction? pointer = some (.storeGlobal name)) :
    (machine.step host).store.tables =
      machine.store.tables.after ((Stage.steps machine).deed? host) := by
  have noChange : (Stage.steps machine).change? host = none := by
    simp only [Stage.change?, request?, coding, Option.bind_none]
  have stored := stored?_of_code coding fetched
  cases there : (machine.store.processor id).atHand? with
  | some value =>
    rw [there, Option.map_some] at stored
    rw [step_storeGlobal host coding fetched there, Stage.deed?, Stage.stored?, stored]
    rfl
  | none =>
    rw [there, Option.map_none] at stored
    rw [step_storeGlobal_of_nothing host coding fetched there, Stage.deed?, Stage.stored?, stored,
      noChange]
    rfl

/-- A step does the deed of its stage to the tables and nothing else. Code has one instruction that
does one, and a function of the host does one by a change; all else only looks at the tables. -/
theorem tables_step (host : Host W) (machine : Machine W) : (machine.step host).store.tables =
    machine.store.tables.after ((Stage.steps machine).deed? host) := by
  -- Code that stores a global writes to a store from which the value has been taken already, so
  -- that its step cannot be told by the store it starts from. All other steps write at once or not
  -- at all.
  by_cases storing : ∃ id pointer name, machine.focus = .code id pointer ∧
      machine.store.chunk.instruction? pointer = some (.storeGlobal name)
  · obtain ⟨id, pointer, name, coding, fetched⟩ := storing
    exact tables_storeGlobal host coding fetched
  · have other : ∀ id pointer name, machine.focus = .code id pointer →
        machine.store.chunk.instruction? pointer ≠ some (.storeGlobal name) :=
      fun id pointer name coding fetched => storing ⟨id, pointer, name, coding, fetched⟩
    rw [Stage.deed?, Stage.stored?, stored?_of_other other]
    cases asked : (Stage.steps machine).change? host with
    | some change =>
      rw [step_change host asked]
      exact Store.tables_edit machine.store change
    | none =>
      refine relates_step Store.lenient_tables host machine
        (fun id pointer name coding fetched => absurd fetched (other id pointer name coding))
        (fun _ _ _ _ _ _ _ _ => rfl) fun change wanted => ?_
      rw [asked] at wanted
      cases wanted

/-- An operation begins with the deed of a change by hand. The others have only looked at the tables
by then. -/
theorem tables_begin (host : Host W) (machine : Machine W) (operation : Operation) (world : W) :
    (enter (operation.begin machine.store) world []).store.tables =
      machine.store.tables.after ((Stage.begins machine operation).deed? host) := by
  cases operation with
  | edit change => exact Store.tables_edit machine.store change
  | _ =>
    exact relates_begin Store.lenient_tables host machine _ world fun _ wanted => by cases wanted

end Machine

/-! ### Runs -/

namespace Machine.Traces

variable {chunk : Chunk} {settings : Settings} {thread : ThreadId} {world : W}
  {start machine : Machine W} {trace : List (Stage W)} {stage : Stage W}

/-- The last stage of a run does its deed to the tables. -/
theorem tables_last (traces : Machine.Traces host start (stage :: trace) machine) :
    machine.store.tables = stage.before.store.tables.after (stage.deed? host) := by
  cases traces with
  | begins operation world traces rests => exact Machine.tables_begin host _ operation world
  | steps traces => exact Machine.tables_step host _

/-- Only tables that there are are written to, that of the globals among them. The host can name a
table only after it has been created. -/
theorem known_of_deed {id : TableId} {name : String} {value : Value}
    (globals : stage.before.store.tables.Has Store.globals)
    (deed : stage.deed? host = some (.set id name value)) : stage.before.store.tables.Has id := by
  rw [Stage.deed?] at deed
  split at deed
  next =>
    cases deed
    exact globals
  next =>
    obtain ⟨change, _, deed⟩ := Option.bind_eq_some_iff.mp deed
    unfold Edit.deed? at deed
    split at deed
    · cases deed
    · split at deed
      next known =>
        cases deed
        exact known
      next => cases deed
    · cases deed

/-- The tables of a run are those that its deeds make, one after the other. The induction is on the
run, of which every stage does its deed. -/
theorem tables_made
    (traces : Machine.Traces host (.new (.initial chunk settings thread) world) trace machine) :
    machine.store.tables.Made (tableDeeds host trace) ∧ machine.store.tables.Has Store.globals := by
  induction traces with
  | stays => exact ⟨.creates .start, Nat.zero_lt_one⟩
  | begins operation world traces rests inductionHypothesis =>
    obtain ⟨made, globals⟩ := inductionHypothesis
    rw [tableDeeds_cons, Machine.tables_begin host]
    exact ⟨made.after _ fun _ _ _ => known_of_deed globals, globals.after _⟩
  | steps traces inductionHypothesis =>
    obtain ⟨made, globals⟩ := inductionHypothesis
    rw [tableDeeds_cons, Machine.tables_step]
    exact ⟨made.after _ fun _ _ _ => known_of_deed globals, globals.after _⟩

end Machine.Traces

/-- The host sets a global by a deed. -/
theorem Stage.deed?_of_change {stage : Stage W} {name : String} {value : Value}
    (globals : stage.before.store.tables.Has Store.globals)
    (asked : stage.change? host = some (.setEntry Store.globals name value)) :
    stage.deed? host = some (.set Store.globals name value) := by
  have nothing : stage.stored? = none := by
    cases stage with
    | begins before operation => rfl
    | steps before =>
      obtain ⟨request, wanted, _⟩ := Option.bind_eq_some_iff.mp asked
      rw [stored?, Machine.stored?]
      rw [Machine.request?] at wanted
      split at wanted
      next hosts => rw [hosts]
      next => cases wanted
  rw [deed?, nothing, asked]
  exact if_pos globals

/-- What it means that everyone shares the globals of a run. -/
structure Machine.SharesGlobals (host : Host W) (trace : List (Stage W)) (machine : Machine W) :
    Prop where
  lawful : machine.store.tables.Lawful (tableDeeds host trace)
  /-- Code of any processor sets the value that it has at hand, and goes on. -/
  stores : ∀ id pointer name value, machine.focus = .code id pointer →
    machine.store.chunk.instruction? pointer = some (.storeGlobal name) →
    (machine.store.processor id).atHand? = some value →
      (Stage.steps machine).deed? host = some (.set Store.globals name value) ∧
        (machine.step host).focus = .code id (pointer + 1)
  /-- The host sets any value, from a function on any processor or between operations. -/
  sets : ∀ stage : Stage W, stage.before = machine → ∀ name value,
    stage.change? host = some (.setEntry Store.globals name value) →
      stage.deed? host = some (.set Store.globals name value)
  /-- Code of any processor gets what has been set last, unless its stack is full. -/
  loads : ∀ id pointer name, machine.focus = .code id pointer →
    machine.store.chunk.instruction? pointer = some (.loadGlobal name) →
      machine.step host =
        if (machine.store.processor id).values.isFull then { machine with
          focus := .settled (.error (.stackOverflow (machine.store.processor id).values.capacity)) }
        else { machine with
          store := machine.store.addTop id (lastGlobal host trace name),
          focus := .code id (pointer + 1) }
  /-- And so does the host. -/
  gets : ∀ name, machine.store.getGlobal name = lastGlobal host trace name
  /-- A stage leaves every table alone that its deed is not about. -/
  keeps : ∀ stage earlier, trace = stage :: earlier → ∀ id,
    (∀ other name value, stage.deed? host = some (.set other name value) →
      (Value.table other).same (.table id) = false) →
    machine.store.tables.table id = stage.before.store.tables.table id

/-- A table is a map that everyone who has a reference to it shares, and so are the globals of a
script. The first part is about any deeds done one after the other; the second one finds these deeds
in a run, where each stage does one or none. -/
theorem tables_shared :
    (∀ {deeds : List TableDeed} {tables : Tables}, tables.Made deeds → tables.Lawful deeds) ∧
    ∀ {W : Type} {host : Host W} {chunk : Chunk} {settings : Settings} {thread : ThreadId}
      {world : W} {trace : List (Stage W)} {machine : Machine W},
      Machine.Traces host (.new (.initial chunk settings thread) world) trace machine →
        machine.SharesGlobals host trace := by
  refine ⟨Tables.Made.lawful, fun {W host chunk settings thread world trace machine} traces => ?_⟩
  obtain ⟨made, globals⟩ := traces.tables_made
  have gets : ∀ name, machine.store.getGlobal name = lastGlobal host trace name :=
    made.get Store.globals
  refine ⟨made.lawful, ?_, ?_, ?_, gets, ?_⟩
  · intro id pointer name value coding fetched there
    rw [Stage.deed?, Stage.stored?, Machine.stored?_of_code coding fetched, there,
      Machine.step_storeGlobal host coding fetched there]
    exact ⟨rfl, rfl⟩
  · rintro stage rfl name value asked
    exact Stage.deed?_of_change globals asked
  · intro id pointer name coding fetched
    rw [← gets name]
    exact Machine.step_loadGlobal host coding fetched
  · rintro stage earlier rfl id others
    rw [traces.tables_last]
    cases does : stage.deed? host with
    | none => rfl
    | some deed =>
      cases deed with
      | create => exact Tables.table_create _ id
      | set other name value =>
        have different := Value.ne_of_not_same_table (others other name value does)
        exact Tables.table_set_other different name value

/-- A main body that loads a global, and a coroutine that stores a tuple in it. -/
def noticeChunk : Chunk where
  functions := #[⟨"main", 0, 0, false⟩, ⟨"writer", 2, 0, false⟩]
  code := #[.loadGlobal "notice", .ret 1, .literal (.boolean true), .literal .nil, .tuple 2,
    .storeGlobal "notice", .ret 0]

/-- The script with the coroutine. -/
def noticeStart : Machine Unit :=
  .enter ((Operation.create (.closure ⟨1, ⟨0, []⟩⟩)).begin (.sample noticeChunk)) () []

/-- The coroutine after so many steps. -/
def noticeWriter : Nat → Machine Unit
  | 0 => .enter ((Operation.resume 1 []).begin noticeStart.store) () []
  | steps + 1 => (noticeWriter steps).step .silent

/-- The script when the main body is about to load the global. -/
def noticeReader : Machine Unit :=
  .enter ((Operation.call .mainBody []).begin (noticeWriter 6).store) () []

/-- What has happened until then. -/
def noticeTrace : List (Stage Unit) :=
  [.begins (noticeWriter 6) (.call .mainBody []), .steps (noticeWriter 5), .steps (noticeWriter 4),
    .steps (noticeWriter 3), .steps (noticeWriter 2), .steps (noticeWriter 1),
      .steps (noticeWriter 0),
    .begins noticeStart (.resume 1 []),
    .begins (.new (.sample noticeChunk) ()) (.create (.closure ⟨1, ⟨0, []⟩⟩))]

/-- The stages of this example are those of a run. -/
theorem traces_noticeReader :
    Machine.Traces Host.silent (.new (.sample noticeChunk) ()) noticeTrace noticeReader :=
  ((Machine.Traces.stays.begins (.create (.closure ⟨1, ⟨0, []⟩⟩)) () rfl).begins (.resume 1 []) ()
    rfl).steps.steps.steps.steps.steps.steps.begins (.call .mainBody []) () (by decide +kernel)

/-- The main body gets what the coroutine has stored, collapsed. A tuple that begins with nil
removes what has been there. -/
theorem coroutine_global_loaded :
    noticeReader.SharesGlobals Host.silent noticeTrace ∧
      lastGlobal Host.silent noticeTrace "notice" = .boolean true ∧
      noticeReader.step .silent = { noticeReader with
        store := noticeReader.store.addTop Store.main (.boolean true),
        focus := .code Store.main 1 } ∧
      ∃ tables : Tables, tables.Lawful [.set 0 "first" (.tuple [.tuple [], .boolean true]),
        .set 0 "first" (.boolean true), .create] ∧ (tables.table 0).isEmpty = true := by
  have shares := tables_shared.2 traces_noticeReader
  have last : lastGlobal Host.silent noticeTrace "notice" = .boolean true := by
    rw [← shares.gets]
    exact Value.eq_of_same_boolean (by decide +kernel)
  have room : (noticeReader.store.processor Store.main).values.isFull = false := by
    decide +kernel
  refine ⟨shares, last, ?_, ?_⟩
  · rw [shares.loads Store.main 0 "notice" rfl rfl, room, last]
    rfl
  · have stored : Tables.Made [.set 0 "first" (.boolean true), .create] _ :=
      .sets (.creates .start) Nat.zero_lt_one _ _
    have removed : Tables.Made [.set 0 "first" (.tuple [.tuple [], .boolean true]),
        .set 0 "first" (.boolean true), .create] _ := stored.sets Nat.zero_lt_one _ _
    exact ⟨_, tables_shared.1 removed, rfl⟩

end CoroutineVM
