import CoroutineVM.Proofs.Machine.Runs
import CoroutineVM.Proofs.Room.Machines

/-!
# Runs with more room

A script is run twice, with settings of which the second ones let its stacks grow higher. The host
does the same both times: the same operations begin after the same number of steps. As long as the
first run finds no stack full, not even where the error is caught, the second one is the same run.
So room is not observable but by running out of it.
-/

namespace CoroutineVM

variable {W : Type} {host : Host W}

/-- What is done next with a script. -/
inductive Deed (W : Type) where
  /-- The host does something in its own world and begins an operation then. -/
  | begins (own : W → W) (operation : Operation)
  /-- The machine makes a step. -/
  | steps

namespace Machine

/-- What a deed makes of a machine. -/
def does (host : Host W) (machine : Machine W) : Deed W → Machine W
  | .begins own operation => enter (operation.begin machine.store) (own machine.world) []
  | .steps => machine.step host

/-- The machine after these deeds, oldest first. -/
def after (host : Host W) (machine : Machine W) (deeds : List (Deed W)) : Machine W :=
  deeds.foldl (does host) machine

/-- The last deed is done after all others. -/
theorem after_concat (machine : Machine W) (deeds : List (Deed W)) (deed : Deed W) :
    machine.after host (deeds ++ [deed]) = (machine.after host deeds).does host deed :=
  List.foldl_concat ..

/-- Every machine that a run leads to is there after some deeds. So what is said about deeds is said
about all runs. -/
theorem Leads.exists_deeds {start machine : Machine W} {operations : List Operation}
    (leads : Leads host start operations machine) : ∃ deeds, machine = start.after host deeds := by
  induction leads with
  | stays => exact ⟨[], rfl⟩
  | operates operation world _ _ inductionHypothesis =>
    obtain ⟨deeds, rfl⟩ := inductionHypothesis
    refine ⟨deeds ++ [.begins (fun _ => world) operation], ?_⟩
    rw [after_concat]
    rfl
  | steps _ inductionHypothesis =>
    obtain ⟨deeds, rfl⟩ := inductionHypothesis
    refine ⟨deeds ++ [.steps], ?_⟩
    rw [after_concat]
    rfl

/-- Nothing but the room on the stacks tells these machines apart. -/
structure SameBut (first second : Machine W) : Prop where
  place : second.focus = first.focus
  outcome : second.outcome? = first.outcome?
  world : second.world = first.world
  tables : second.store.tables = first.store.tables
  cells : second.store.cells = first.store.cells
  coroutines : second.store.coroutines.size = first.store.coroutines.size
  statuses : ∀ id, second.store.status id = first.store.status id
  values :
    ∀ id, (second.store.processor id).values.toList = (first.store.processor id).values.toList
  frames :
    ∀ id, (second.store.processor id).frames.toList = (first.store.processor id).frames.toList

variable {small large : Settings} {first second : Machine W}

/-- Machines of which one has no less room are the same but for settings, capacities and what is
counted. -/
theorem Wider.sameBut (wider : Wider small large first second) : SameBut first second where
  place := wider.focus
  outcome := by
    have waiting := wider.waiting
    rw [outcome?, outcome?, wider.focus]
    cases first.focus with
    | settled outcome =>
      generalize first.pending = pending at waiting
      generalize second.pending = others at waiting
      cases waiting <;> rfl
    | code id pointer => rfl
    | host id event => rfl
  world := wider.world
  tables := wider.store.tables
  cells := wider.store.cells
  coroutines := wider.store.size
  statuses := wider.store.status
  values := fun id => (wider.store.processor id).values.toList
  frames := fun id => (wider.store.processor id).frames.toList

/-- They stay so whatever is done, unless the first one overflows. -/
theorem Wider.does (wider : Wider small large first second) (blind : host.Blind small large)
    (deed : Deed W) : Widens small large (first.does host deed) (second.does host deed) := by
  cases deed with
  | begins own operation =>
    simp only [Machine.does, wider.world]
    exact wider.begin operation (own first.world)
  | steps => exact wider.step blind

/-- Deed by deed, the second machine stays at the place of the first one. The induction is on the
deeds, and the first machine has overflowed after none of them. -/
theorem Wider.after (wider : Wider small large first second) (blind : host.Blind small large)
    (deeds : List (Deed W))
    (fits : ∀ earlier, earlier <+: deeds → (first.after host earlier).focus.overflows = false) :
    Wider small large (first.after host deeds) (second.after host deeds) := by
  -- From the end, so that the last deed is done in machines that the hypothesis speaks of.
  induction deeds using List.reverseRecOn with
  | nil => exact wider
  | append_singleton deeds deed inductionHypothesis =>
    have reached := inductionHypothesis fun earlier before =>
      fits earlier (before.trans (List.prefix_append ..))
    have room := fits _ (List.prefix_refl _)
    rw [after_concat] at room
    rw [after_concat, after_concat]
    exact (reached.does blind deed).resolve_left (ne_true_of_eq_false room)

end Machine

open Machine

/-- Higher stacks change nothing, as long as the host does not ask for the settings: whatever it
does with two new scripts, the run with lower stacks either finds one of them full or is the same
run. -/
theorem larger_stacks_change_nothing {small large : Settings} (widens : small.Widens large)
    (blind : host.Blind small large) (chunk : Chunk) (thread : ThreadId) (world : W)
    (deeds : List (Deed W))
    (fits : ∀ earlier, earlier <+: deeds →
      ((Machine.new (.initial chunk small thread) world).after host earlier).focus.overflows =
        false) :
    ∀ earlier, earlier <+: deeds →
      SameBut ((Machine.new (.initial chunk small thread) world).after host earlier)
        ((Machine.new (.initial chunk large thread) world).after host earlier) := by
  intro earlier before
  have start : Machine.Wider small large (Machine.new (.initial chunk small thread) world)
      (Machine.new (.initial chunk large thread) world) :=
    ⟨Store.wider_initial widens chunk thread, rfl, rfl, .nil⟩
  have reached := start.after blind earlier fun first prior => fits first (prior.trans before)
  exact reached.sameBut

/-- A main body that resumes a coroutine, which yields. -/
def pausingChunk : Chunk where
  functions := #[⟨"main", 0, 0, false⟩, ⟨"pauses", 4, 0, false⟩]
  code :=
    #[.makeClosure 1 [], .createCoroutine, .resumeCoroutine 0, .ret 1, .literal .nil,
      .yield 1, .ret 1]

/-- The main body is called, and then the coroutine is resumed again. -/
def pausingDeeds : List (Deed Unit) :=
  .begins id (.call .mainBody []) :: List.replicate 12 .steps ++
    .begins id (.resume 1 []) :: List.replicate 4 .steps

/-- A host that says nothing cannot tell any two settings apart. -/
theorem silent_blind (small large : Settings) : Host.silent.Blind small large :=
  ⟨fun _ _ _ _ => rfl, fun _ _ _ _ => rfl⟩

/-- The run of this example never fills a stack of the smaller settings, so that it is the same with
the larger ones. -/
theorem pausing_runs_the_same :
    SameBut ((Machine.new (.initial pausingChunk ⟨8, 4, true, ""⟩ 0) ()).after .silent pausingDeeds)
      ((Machine.new (.initial pausingChunk ⟨1024, 64, false, ""⟩ 0) ()).after .silent
        pausingDeeds) := by
  have fits : ∀ earlier ∈ pausingDeeds.inits,
      ((Machine.new (.initial pausingChunk ⟨8, 4, true, ""⟩ 0) ()).after .silent
        earlier).focus.overflows = false := by decide +kernel
  have widens : Settings.Widens ⟨8, 4, true, ""⟩ ⟨1024, 64, false, ""⟩ := by
    constructor <;> decide
  apply larger_stacks_change_nothing widens (silent_blind _ _) pausingChunk 0 () pausingDeeds
  · intro earlier before
    exact fits earlier ((List.mem_inits ..).mpr before)
  · exact List.prefix_refl _

end CoroutineVM
