import CoroutineVM.Machine.Step

/-!
# Entries in isolation

What an entry does until it has come to its outcome has nothing to do with those who wait outside of
it. A machine may therefore be looked at without them, as one that comes to rest when the entry is
over. `Returns` says of a machine with others outside that it first goes back to them with this
outcome; `step_under` is what makes the two ways of looking at it one.
-/

namespace CoroutineVM

variable {W : Type} {host : Host W}

namespace Machine

/-- A machine with others who wait outside of all who wait already. -/
def under (outer : List Pending) (machine : Machine W) : Machine W :=
  { machine with pending := machine.pending ++ outer }

/-- From this machine the run first goes back to those outside with this outcome. -/
inductive Returns (host : Host W) (outer : List Pending) :
    Machine W → Store → W → Outcome → Prop where
  | back (store : Store) (world : W) (outcome : Outcome) :
      Returns host outer ⟨store, world, .settled outcome, outer⟩ store world outcome
  | onward {machine : Machine W} {store : Store} {world : W} {outcome : Outcome}
      (busy : ∀ other, machine.focus = .settled other → machine.pending ≠ outer)
      (rest : Returns host outer (machine.step host) store world outcome) :
      Returns host outer machine store world outcome

/-- The machines that a run goes through from this one. -/
inductive Runs (host : Host W) : Machine W → Machine W → Prop where
  | refl (machine : Machine W) : Runs host machine machine
  | step {first last : Machine W} (rest : Runs host (first.step host) last) : Runs host first last

end Machine

open Machine

/-! ### Steps -/

variable {outer : List Pending}

/-- An entry begins inside of all who wait, whoever they are. -/
theorem enter_under (turn : Turn) (world : W) (pending : List Pending) :
    Machine.enter turn world (pending ++ outer) =
      (Machine.enter turn world pending).under outer := by
  simp [Machine.enter, Machine.under]

/-- A push looks at nobody who waits. -/
theorem pushResult_under (id : CoroutineId) (resumeAt : Nat) (value : Value) (store : Store)
    (world : W) (pending : List Pending) :
    pushResult id resumeAt value store world (pending ++ outer) =
      (pushResult id resumeAt value store world pending).under outer := by
  unfold pushResult
  split <;> rfl

/-- An instruction puts at most one more inside of those who wait. -/
theorem stepCode_under (id : CoroutineId) (pointer : Nat) (store : Store) (world : W)
    (pending : List Pending) :
    stepCode id pointer store world (pending ++ outer) =
      (stepCode id pointer store world pending).under outer := by
  unfold stepCode
  split
  · rfl
  · split
    · rfl
    · rfl
    · rfl
    · rfl
    · rfl
    · exact enter_under _ _ (_ :: pending)

/-- So does a request of a host function. -/
theorem stepRequest_under (id : CoroutineId) (request : Request) (store : Store) (world : W)
    (pending : List Pending) :
    stepRequest id request store world (pending ++ outer) =
      (stepRequest id request store world pending).under outer := by
  cases request with
  | call callee arguments => exact enter_under _ _ (_ :: pending)
  | resume target arguments => exact enter_under _ _ (_ :: pending)
  | callScript callee arguments => exact enter_under _ _ (_ :: pending)
  | resumeHandle target arguments => exact enter_under _ _ (_ :: pending)
  | enterGuard thread =>
    simp only [stepRequest]
    split <;> rfl
  | _ => rfl

/-- An outcome is handed to the innermost one; those outside of that one are not looked at. -/
theorem stepSettled_under (outcome : Outcome) (waiting : Pending) (store : Store) (world : W)
    (pending : List Pending) :
    stepSettled host outcome waiting store world (pending ++ outer) =
      (stepSettled host outcome waiting store world pending).under outer := by
  cases waiting with
  | hostFunction on resumeAt =>
    cases outcome with
    | ok exit => exact pushResult_under on resumeAt _ store world pending
    | error error => rfl
  | resumeInstruction on resumeAt =>
    cases outcome with
    | ok exit => exact pushResult_under on resumeAt _ store world pending
    | error error =>
      simp only [stepSettled]
      split
      · rfl
      · exact pushResult_under on resumeAt _ store world pending
  | _ => rfl

/-- A machine that is not at rest does the same with others outside as without them. At rest it
would stop, where with others outside the next of them gets the outcome. -/
theorem step_under (machine : Machine W) (busy : machine.atRest = false) :
    (machine.under outer).step host = (machine.step host).under outer := by
  obtain ⟨store, world, focus, pending⟩ := machine
  cases focus with
  | code id pointer => exact stepCode_under id pointer store world pending
  | host id event => exact stepRequest_under id _ store _ pending
  | settled outcome =>
    cases pending with
    | nil => cases busy
    | cons waiting pending => exact stepSettled_under outcome waiting store world pending

/-! ### Returns -/

/-- A machine is at rest when it has come to an outcome and nobody waits for it. -/
theorem atRest_iff {machine : Machine W} :
    machine.atRest = true ↔ ∃ outcome, machine.focus = .settled outcome ∧ machine.pending = [] := by
  obtain ⟨store, world, focus, pending⟩ := machine
  cases focus <;> cases pending <;> simp [atRest]

/-- A machine under others is back with them exactly if it is at rest without them. -/
theorem busy_under {machine : Machine W} :
    machine.atRest = false ↔
      ∀ other, (machine.under outer).focus = .settled other →
        (machine.under outer).pending ≠ outer := by
  rw [← Bool.not_eq_true, atRest_iff]
  simp only [under, ne_eq, List.append_left_eq_self, not_exists, not_and]

/-- The outcome of a machine at rest is the one that it stands at. -/
theorem outcome_eq_some {machine : Machine W} {outcome : Outcome} :
    machine.outcome? = some outcome ↔ machine.focus = .settled outcome ∧ machine.pending = [] := by
  obtain ⟨store, world, focus, pending⟩ := machine
  cases focus <;> cases pending <;> simp [outcome?]

/-- An entry that comes to an outcome in isolation goes back to those who wait outside with it. So
finite runs that can be computed show what happens under anyone. -/
theorem returns_of_outcome (machine : Machine W) (steps : Nat) {outcome : Outcome}
    (ends : (machine.run host steps).outcome? = some outcome) :
    Returns host outer (machine.under outer) (machine.run host steps).store
      (machine.run host steps).world outcome := by
  have back : ∀ machine : Machine W, machine.outcome? = some outcome →
      Returns host outer (machine.under outer) machine.store machine.world outcome := by
    intro machine ends
    obtain ⟨store, world, focus, pending⟩ := machine
    obtain ⟨rfl, rfl⟩ := outcome_eq_some.mp ends
    exact .back store world outcome
  induction steps generalizing machine with
  | zero => exact back machine ends
  | succ steps inductionHypothesis =>
    rw [Machine.run] at ends ⊢
    split at ends
    next resting =>
      rw [if_pos resting]
      exact back machine ends
    next busy =>
      rw [if_neg busy]
      rw [Bool.not_eq_true] at busy
      have rest := inductionHypothesis _ ends
      rw [← step_under machine busy] at rest
      exact .onward (busy_under.mp busy) rest

/-- An entry that comes to rest in isolation goes back to those who wait outside. -/
theorem returns_of_rest (machine : Machine W) (steps : Nat)
    (rests : (machine.run host steps).atRest = true) :
    ∃ store world outcome, Returns host outer (machine.under outer) store world outcome := by
  obtain ⟨outcome, ends⟩ := atRest_iff.mp rests
  exact ⟨_, _, outcome, returns_of_outcome machine steps (outcome_eq_some.mpr ends)⟩

/-- The error that a machine at rest has come to. -/
def Machine.failure? (machine : Machine W) : Option ScriptError :=
  match machine.outcome? with
  | some (.error error) => some error
  | _ => none

/-- An entry that fails in isolation goes back to those who wait outside with its error. -/
theorem returns_of_failure (outer : List Pending) (machine : Machine W) (steps : Nat)
    {error : ScriptError} (fails : (machine.run host steps).failure? = some error) :
    Returns host outer (machine.under outer) (machine.run host steps).store
      (machine.run host steps).world (.error error) := by
  refine returns_of_outcome machine steps ?_
  rw [Machine.failure?] at fails
  split at fails
  next ends =>
    cases fails
    exact ends
  next => cases fails

/-- A machine that stands at an outcome for those outside has come back to them already. -/
theorem Machine.Returns.settled {store after : Store} {world later : W} {outcome result : Outcome}
    (returns : Returns host outer ⟨store, world, .settled outcome, outer⟩ after later result) :
    after = store ∧ later = world ∧ result = outcome := by
  cases returns with
  | back => exact ⟨rfl, rfl, rfl⟩
  | onward busy rest => exact absurd rfl (busy outcome rfl)

/-- Whoever waits between an entry and those outside is handed the outcome of the entry before they
are handed theirs. The induction is on the way back; the machine is given as one under the others,
since only then nobody of them can be reached without the one in between. -/
theorem Machine.Returns.through {machine : Machine W} {waiting : Pending} {after : Store}
    {later : W} {outcome : Outcome} (returns : Returns host outer machine after later outcome)
    (isolated : Machine W) (isUnder : machine = isolated.under (waiting :: outer)) :
    ∃ store world inner, Returns host (waiting :: outer) machine store world inner ∧
      Returns host outer
        (stepSettled host inner waiting store world outer) after later outcome := by
  induction returns generalizing isolated with
  | back store world outcome =>
    have lengths := congrArg (fun machine => machine.pending.length) isUnder
    simp only [under, List.length_append, List.length_cons] at lengths
    omega
  | @onward machine store world outcome busy rest inductionHypothesis =>
    subst isUnder
    by_cases rests : isolated.atRest = true
    · obtain ⟨inside, insideWorld, focus, pending⟩ := isolated
      obtain ⟨inner, rfl, rfl⟩ := atRest_iff.mp rests
      exact ⟨inside, insideWorld, inner, .back inside insideWorld inner, rest⟩
    · rw [Bool.not_eq_true] at rests
      obtain ⟨inside, insideWorld, inner, returns, closes⟩ :=
        inductionHypothesis _ (step_under isolated rests)
      exact ⟨inside, insideWorld, inner, .onward (busy_under.mp rests) returns, closes⟩

/-- The other way round: when the one who waits has been handed the outcome, those outside get
theirs. -/
theorem Machine.Returns.rejoin {machine : Machine W} {waiting : Pending} {store after : Store}
    {world later : W} {inner outcome : Outcome}
    (returns : Returns host (waiting :: outer) machine store world inner) (isolated : Machine W)
    (isUnder : machine = isolated.under (waiting :: outer))
    (closes :
      Returns host outer (stepSettled host inner waiting store world outer) after later outcome) :
    Returns host outer machine after later outcome := by
  have apart (other : Machine W) : (other.under (waiting :: outer)).pending ≠ outer := by
    intro same
    have lengths := congrArg List.length same
    simp only [under, List.length_append, List.length_cons] at lengths
    omega
  induction returns generalizing isolated with
  | back store world inner =>
    refine .onward (fun _ _ => ?_) closes
    rw [isUnder]
    exact apart isolated
  | onward busy rest inductionHypothesis =>
    subst isUnder
    have moving := busy_under.mpr busy
    exact .onward (fun _ _ => apart isolated)
      (inductionHypothesis _ (step_under isolated moving) closes)

/-! ### Runs without an end -/

/-- The machine never comes to rest. -/
def Machine.Diverges (host : Host W) (machine : Machine W) : Prop :=
  ∀ steps, (machine.run host steps).atRest = false

/-- An entry that comes back where nobody waits outside is a run of so many steps. -/
theorem Machine.Returns.exists_run {machine : Machine W} {after : Store} {later : W}
    {outcome : Outcome} (returns : Returns host [] machine after later outcome) :
    ∃ steps, machine.run host steps = ⟨after, later, .settled outcome, []⟩ := by
  induction returns with
  | back store world outcome => exact ⟨0, rfl⟩
  | @onward machine _ _ _ busy rest inductionHypothesis =>
    obtain ⟨steps, ends⟩ := inductionHypothesis
    have moving : ¬ machine.atRest = true := by
      rw [atRest_iff]
      rintro ⟨other, settled, alone⟩
      exact busy other settled alone
    refine ⟨steps + 1, ?_⟩
    rw [Machine.run, if_neg moving, ends]

/-- A machine never comes to rest exactly if it never comes back to anyone with anything. So
divergence can be compared by what comes back. -/
theorem diverges_iff {machine : Machine W} :
    machine.Diverges host ↔
      ∀ after later outcome, ¬ Returns host [] machine after later outcome := by
  constructor
  · intro diverges after later outcome returns
    obtain ⟨steps, ends⟩ := returns.exists_run
    have moving := diverges steps
    rw [ends] at moving
    cases moving
  · intro never steps
    rw [← Bool.not_eq_true]
    intro rests
    obtain ⟨after, later, outcome, returns⟩ := returns_of_rest machine steps rests
    have alone : machine.under [] = machine := by simp [under]
    rw [alone] at returns
    exact never after later outcome returns

end CoroutineVM
