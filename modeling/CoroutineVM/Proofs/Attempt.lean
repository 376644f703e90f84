import CoroutineVM.Attempt

/-!
# What attempts come to

An attempt may succeed or fail, and it leaves a state in both cases. `Ends` states what holds after
either, and the lemmas follow the ways in which attempts are put together, so that the facts about a
compound attempt come from those about its parts. `Upholds` is the case of something that holds
before and after. `Commutes` and `Matches` compare attempts that start from two states: the second
state is made from the first one by a change, or is related to it. Nothing here knows what the
states are.
-/

namespace CoroutineVM.Attempt

variable {σ α β : Type}

/-- Whatever an attempt comes to from a state is as stated: one condition for its result, one for
its error, each with the state that is left. -/
def Ends (attempt : Attempt σ α) (state : σ) (good : α → σ → Prop)
    (bad : ScriptError → σ → Prop) : Prop :=
  match attempt state with
  | (.ok result, after) => good result after
  | (.error error, after) => bad error after

variable {state : σ} {good : α → σ → Prop} {bad : ScriptError → σ → Prop}

/-- For a run that is known to succeed only the condition on results matters. -/
theorem ends_ok {attempt : Attempt σ α} {result : α} {after : σ}
    (run : attempt state = (.ok result, after)) (reached : good result after) :
    Ends attempt state good bad := by
  rw [Ends, run]
  exact reached

/-- For a run that is known to fail only the condition on errors matters. The state that is left
counts here as well: a failed attempt may have changed it. -/
theorem ends_error {attempt : Attempt σ α} {error : ScriptError} {after : σ}
    (run : attempt state = (.error error, after)) (reached : bad error after) :
    Ends attempt state good bad := by
  rw [Ends, run]
  exact reached

/-- An attempt that does nothing succeeds in the state where it starts. -/
theorem ends_pure {result : α} (reached : good result state) :
    Ends (pure result) state good bad := reached

/-- An attempt that fails at once has changed nothing yet. -/
theorem ends_fail {error : ScriptError} (reached : bad error state) :
    Ends (fail error) state good bad := reached

/-- Reading never fails and leaves the state alone. -/
theorem ends_read {look : σ → α} (reached : good (look state) state) :
    Ends (read look) state good bad := reached

/-- Looking at a state leaves it alone, whether or not what is looked for is there. -/
theorem ends_check {look : σ → Except ScriptError α}
    (found : ∀ result, look state = .ok result → good result state)
    (missed : ∀ error, look state = .error error → bad error state) :
    Ends (check look) state good bad := by
  rw [Ends, check]
  cases looked : look state with
  | ok result => exact found result looked
  | error error => exact missed error looked

/-- The second part starts from what the first one has reached; its error is the error of both. The
condition `between` is what the proof of the first part hands to the proof of the second, so that
neither opens the other. -/
theorem ends_bind {first : Attempt σ β} {second : β → Attempt σ α} {between : β → σ → Prop}
    (before : Ends first state between bad)
    (after : ∀ result next, between result next → Ends (second result) next good bad) :
    Ends (first >>= second) state good bad := by
  change Ends (andThen first second) state good bad
  cases reached : first state with
  | mk outcome middle =>
    rw [Ends, reached] at before
    rw [Ends, andThen, reached]
    cases outcome with
    | ok result => exact after result middle before
    | error error => exact before

/-- A first part whose run is known need not be described by a condition: the second one is looked
at from the very state that was reached. -/
theorem ends_bind_ok {first : Attempt σ β} {second : β → Attempt σ α} {result : β} {middle : σ}
    (run : first state = (.ok result, middle)) (after : Ends (second result) middle good bad) :
    Ends (first >>= second) state good bad := by
  change Ends (andThen first second) state good bad
  rw [Ends, andThen, run]
  exact after

/-- What is known of the results of the last part, whatever has led there. Nothing is asked of the
first part, which makes this the way to the shape of a result where the states do not matter. -/
theorem ends_of_last {first : Attempt σ β} {second : β → Attempt σ α} {shape : α → Prop}
    (last : ∀ result next, Ends (second result) next (fun final _ => shape final) fun _ _ => True) :
    Ends (first >>= second) state (fun final _ => shape final) fun _ _ => True := by
  have before : Ends first state (fun _ _ => True) fun _ _ => True := by
    rw [Ends]
    split <;> trivial
  exact ends_bind before fun result next _ => last result next

/-- What is done after a look at the state starts from the same state. -/
theorem ends_bind_read {look : σ → β} {second : β → Attempt σ α}
    (after : Ends (second (look state)) state good bad) :
    Ends (read look >>= second) state good bad := after

/-- A check that fails ends the whole attempt in the state where it began, and one that succeeds
hands on what it has found and nothing else. -/
theorem ends_bind_check {look : σ → Except ScriptError β} {second : β → Attempt σ α}
    (found : ∀ result, look state = .ok result → Ends (second result) state good bad)
    (missed : ∀ error, look state = .error error → bad error state) :
    Ends (check look >>= second) state good bad := by
  change Ends (andThen (check look) second) state good bad
  rw [Ends, andThen, check]
  cases looked : look state with
  | ok result => exact found result looked
  | error error => exact missed error looked

/-- What is done after a first part that succeeds, as an equation between runs. The lemmas on `Ends`
say what holds; the equations are for proofs that compute where a run leads. -/
theorem bind_of_ok {first : Attempt σ β} {second : β → Attempt σ α} {result : β} {middle : σ}
    (run : first state = (.ok result, middle)) :
    (first >>= second) state = second result middle := by
  change andThen first second state = _
  rw [andThen, run]

/-- Nothing more is done after a first part that fails. -/
theorem bind_of_error {first : Attempt σ β} {second : β → Attempt σ α} {error : ScriptError}
    {middle : σ} (run : first state = (.error error, middle)) :
    (first >>= second) state = (.error error, middle) := by
  change andThen first second state = _
  rw [andThen, run]

/-- A look at the state disappears from a run: only what it has seen is left. -/
theorem read_bind (look : σ → β) (second : β → Attempt σ α) :
    (read look >>= second) state = second (look state) state := rfl

/-- A check that succeeds disappears in the same way. -/
theorem check_bind_of_ok {look : σ → Except ScriptError β} {second : β → Attempt σ α} {result : β}
    (looked : look state = .ok result) : (check look >>= second) state = second result state :=
  bind_of_ok (by rw [check, looked])

/-- A check that fails ends the run without a change of the state. -/
theorem check_bind_of_error {look : σ → Except ScriptError β} {second : β → Attempt σ α}
    {error : ScriptError} (looked : look state = .error error) :
    (check look >>= second) state = (.error error, state) :=
  bind_of_error (by rw [check, looked])

/-- Three attempts one after the other, however they are grouped. The two sides branch on the
outcome of the first attempt and, when it succeeds, on that of the second. -/
theorem bind_assoc {γ : Type} (first : Attempt σ α) (second : α → Attempt σ β)
    (third : β → Attempt σ γ) :
    first >>= second >>= third = first >>= fun result => second result >>= third := by
  funext state
  change andThen (andThen first second) third state =
    andThen first (fun result => andThen (second result) third) state
  simp only [andThen]
  split <;> rename_i reached <;> split at reached <;> simp_all

/-- Conditions may be weakened on both sides. Facts about a part are stated as strongly as its code
allows and are weakened only where they are used. -/
theorem Ends.mono {attempt : Attempt σ α} {good' : α → σ → Prop} {bad' : ScriptError → σ → Prop}
    (ends : Ends attempt state good bad)
    (weaker : ∀ result after, good result after → good' result after)
    (weakerError : ∀ error after, bad error after → bad' error after) :
    Ends attempt state good' bad' := by
  rw [Ends] at ends ⊢
  split at ends
  · exact weaker _ _ ends
  · exact weakerError _ _ ends

/-- An attempt whose result is put in the place of another one: what it has reached is still known,
its own result is not. -/
theorem Ends.returning {attempt : Attempt σ β} {reached : β → σ → Prop}
    (ends : Ends attempt state reached bad) (result : α) :
    Ends (attempt >>= fun _ => pure result) state
      (fun given after => given = result ∧ ∃ own, reached own after) bad :=
  ends_bind ends fun own _ holds => ends_pure ⟨rfl, own, holds⟩

/-- Whatever an attempt comes to is what it comes to: the strongest condition of all, from which
`Ends.mono` leads to any other. -/
theorem ends_run {attempt : Attempt σ α} : Ends attempt state
    (fun result after => attempt state = (.ok result, after))
    (fun error after => attempt state = (.error error, after)) := by
  rw [Ends]
  split <;> assumption

/-- What holds after an attempt holds of what it comes to. With it a proof has the equation of the
run besides the condition. -/
theorem Ends.reached {attempt : Attempt σ α} (ends : Ends attempt state good bad) :
    Ends attempt state (fun result after => attempt state = (.ok result, after) ∧ good result after)
      (fun error after => attempt state = (.error error, after) ∧ bad error after) := by
  rw [Ends] at ends ⊢
  split at ends <;> exact ⟨by assumption, ends⟩

/-- What holds after success, read off a run. -/
theorem Ends.of_ok {attempt : Attempt σ α} (ends : Ends attempt state good bad) {result : α}
    {after : σ} (reached : attempt state = (.ok result, after)) : good result after := by
  rw [Ends, reached] at ends
  exact ends

/-- What holds after failure, read off a run. -/
theorem Ends.of_error {attempt : Attempt σ α} (ends : Ends attempt state good bad)
    {error : ScriptError} {after : σ} (reached : attempt state = (.error error, after)) :
    bad error after := by
  rw [Ends, reached] at ends
  exact ends

/-- What holds after a run, whichever way it went. The split is on the outcome that the run was seen
to have, so that a proof by cases need not unfold `Ends`. -/
theorem Ends.either {attempt : Attempt σ α} (ends : Ends attempt state good bad)
    {outcome : Except ScriptError α} {after : σ} (reached : attempt state = (outcome, after)) :
    (∃ result, outcome = .ok result ∧ good result after) ∨
      ∃ error, outcome = .error error ∧ bad error after := by
  cases outcome with
  | ok result => exact .inl ⟨result, rfl, ends.of_ok reached⟩
  | error error => exact .inr ⟨error, rfl, ends.of_error reached⟩

/-! ### What attempts uphold -/

section

variable {holds : σ → Prop} {raised : ScriptError → Prop} {shape : α → Prop}

/-- From every state in which something holds an attempt leads to one in which it holds again, with
a result or an error as stated. -/
def Upholds (holds : σ → Prop) (raised : ScriptError → Prop) (shape : α → Prop)
    (attempt : Attempt σ α) : Prop :=
  ∀ state, holds state → attempt.Ends state (fun result after => shape result ∧ holds after)
    (fun error after => raised error ∧ holds after)

/-- Each way of building an attempt upholds what its parts uphold. An attempt that does nothing
upholds everything. -/
theorem upholds_pure {result : α} (shaped : shape result) :
    Upholds holds raised shape (pure result) := fun _ held => ends_pure ⟨shaped, held⟩

/-- An error that may be raised may be raised at once, since the state is the one that was there. -/
theorem upholds_fail {error : ScriptError} (allowed : raised error) :
    Upholds holds raised shape (fail error) := fun _ held => ends_fail ⟨allowed, held⟩

/-- Only states in which something holds are read, so the shape of the result may depend on it. -/
theorem upholds_read {look : σ → α} (shaped : ∀ state, holds state → shape (look state)) :
    Upholds holds raised shape (read look) := fun state held => ends_read ⟨shaped state held, held⟩

/-- A check may give a result or an error; both may rely on what holds, and the state stays. -/
theorem upholds_check {look : σ → Except ScriptError α}
    (found : ∀ state result, holds state → look state = .ok result → shape result)
    (missed : ∀ state error, holds state → look state = .error error → raised error) :
    Upholds holds raised shape (check look) := fun state held =>
  ends_check (fun result looked => ⟨found state result held looked, held⟩)
    (fun error looked => ⟨missed state error held looked, held⟩)

/-- A change of the state is the only way to lose what holds: everything else follows from the
changes that an attempt makes. -/
theorem upholds_modify {change : σ → σ} (kept : ∀ state, holds state → holds (change state)) :
    Upholds holds raised (fun _ => True) (modify change) := fun state held =>
  ends_ok rfl ⟨trivial, kept state held⟩

/-- The second part may rely on what the first one says of its result, and finds the state as it has
to be. -/
theorem upholds_bind {middle : β → Prop} {first : Attempt σ β} {second : β → Attempt σ α}
    (before : Upholds holds raised middle first)
    (after : ∀ result, middle result → Upholds holds raised shape (second result)) :
    Upholds holds raised shape (first >>= second) := fun state held =>
  ends_bind (before state held) fun result next between => after result between.1 next between.2

/-- What is read may be forgotten here: the second part upholds the same for everything that could
have been read. -/
theorem upholds_bind_read {look : σ → β} {second : β → Attempt σ α}
    (after : ∀ result, Upholds holds raised shape (second result)) :
    Upholds holds raised shape (read look >>= second) := fun state held =>
  ends_bind_read (after (look state) state held)

/-- By induction on the items. Only the items that occur are asked about, because what is pushed or
stored one by one must be allowed. -/
theorem upholds_forEach {attempt : α → Attempt σ Unit} {items : List α}
    (each : ∀ item ∈ items, Upholds holds raised (fun _ => True) (attempt item)) :
    Upholds holds raised (fun _ => True) (forEach attempt items) := by
  induction items with
  | nil => exact upholds_pure trivial
  | cons item rest inductionHypothesis =>
    obtain ⟨first, others⟩ := List.forall_mem_cons.mp each
    exact upholds_bind first fun _ _ => inductionHypothesis others

/-- The same where the results are collected; nothing is said of the list that comes out. -/
theorem upholds_mapEach {attempt : β → Attempt σ α}
    (each : ∀ item, Upholds holds raised (fun _ => True) (attempt item)) (items : List β) :
    Upholds holds raised (fun _ => True) (mapEach attempt items) := by
  induction items with
  | nil => exact upholds_pure trivial
  | cons item rest inductionHypothesis =>
    exact upholds_bind (each item) fun _ _ => upholds_bind inductionHypothesis fun _ _ =>
      upholds_pure trivial

end

/-! ### Changes that an attempt does not notice -/

section

variable {change : σ → σ}

/-- An attempt does the same after a change of its state as without it, and the change shows in what
it leaves and nowhere else. -/
def Commutes (change : σ → σ) (attempt : Attempt σ α) (state : σ) : Prop :=
  attempt (change state) = ((attempt state).1, change (attempt state).2)

/-- An attempt that leaves the state alone commutes with every change of it. -/
theorem commutes_pure (result : α) : Commutes change (pure result) state := rfl

/-- So does one that fails. -/
theorem commutes_fail (error : ScriptError) :
    Commutes change (fail error : Attempt σ α) state := rfl

/-- Reading commutes with a change that does not touch what is read: this is where a proof has to
show that the change keeps out of the way. -/
theorem commutes_read {look : σ → α} (same : look (change state) = look state) :
    Commutes change (read look) state := by
  rw [Commutes, read, read, same]

/-- A check commutes under the same condition, whether it succeeds or not. -/
theorem commutes_check {look : σ → Except ScriptError α} (same : look (change state) = look state) :
    Commutes change (check look) state := by
  rw [Commutes, check, check, same]

/-- The second part has to commute only where the first one has led. That is why the state is part
of `Commutes`: a stack may be changed below a height only while the work stays above it. -/
theorem commutes_bind {first : Attempt σ β} {second : β → Attempt σ α}
    (before : Commutes change first state)
    (after : ∀ result next, first state = (.ok result, next) →
      Commutes change (second result) next) :
    Commutes change (first >>= second) state := by
  change andThen first second (change state) = _
  change _ = ((andThen first second state).1, change (andThen first second state).2)
  rw [Commutes] at before
  cases reached : first state with
  | mk outcome middle =>
    rw [reached] at before
    cases outcome with
    | ok result =>
      simp only [andThen, before, reached]
      exact after result middle reached
    | error error => simp only [andThen, before, reached]

end

/-! ### Attempts side by side -/

section

variable {τ : Type} {excused : ScriptError → Prop} {relation : σ → τ → Prop}

/-- From related states the second attempt comes to the same as the first one, and the states they
leave are related again, unless the first one fails with an error that is excused. -/
def Follows (excused : ScriptError → Prop) (relation : σ → τ → Prop) (first : Attempt σ α)
    (second : Attempt τ α) : Prop :=
  ∀ state other, relation state other →
    (∃ error, (first state).1 = .error error ∧ excused error) ∨
      ((second other).1 = (first state).1 ∧ relation (first state).2 (second other).2)

/-- Nothing is excused. -/
abbrev Matches (relation : σ → τ → Prop) (first : Attempt σ α) (second : Attempt τ α) : Prop :=
  Follows (fun _ => False) relation first second

/-- What two such attempts come to. -/
theorem Follows.runs {first : Attempt σ α} {second : Attempt τ α}
    (follows : Follows excused relation first second) {state : σ} {other : τ}
    (related : relation state other) :
    (∃ error after, first state = (.error error, after) ∧ excused error) ∨
      ∃ result after left, first state = (result, after) ∧ second other = (result, left) ∧
        relation after left := by
  obtain ⟨error, failed, excuse⟩ | ⟨same, reached⟩ := follows state other related
  · exact .inl ⟨error, _, Prod.ext failed rfl, excuse⟩
  · exact .inr ⟨_, _, _, rfl, Prod.ext same rfl, reached⟩

/-- Where nothing is excused, both runs have the same outcome and leave related states. -/
theorem Matches.runs {first : Attempt σ α} {second : Attempt τ α}
    (matched : Matches relation first second) {state : σ} {other : τ}
    (related : relation state other) :
    ∃ result after left, first state = (result, after) ∧ second other = (result, left) ∧
      relation after left :=
  (Follows.runs matched related).resolve_left fun ⟨_, _, _, never⟩ => never

/-- The same result from related states leaves them related. -/
theorem follows_pure (result : α) : Follows excused relation (pure result) (pure result) :=
  fun _ _ related => .inr ⟨rfl, related⟩

/-- So does the same error, excused or not. -/
theorem follows_fail (error : ScriptError) :
    Follows excused relation (fail error : Attempt σ α) (fail error) := fun _ _ related =>
  .inr ⟨rfl, related⟩

/-- Two looks match if related states show them the same. They may be different functions, because
the states may be of different types. -/
theorem follows_read {look : σ → α} {glance : τ → α}
    (same : ∀ {state other}, relation state other → glance other = look state) :
    Follows excused relation (read look) (read glance) :=
  fun _ _ related => .inr ⟨congrArg Except.ok (same related), related⟩

/-- Two checks match under the same condition; a failure is then the same on both sides. -/
theorem follows_check {look : σ → Except ScriptError α} {glance : τ → Except ScriptError α}
    (same : ∀ {state other}, relation state other → glance other = look state) :
    Follows excused relation (check look) (check glance) :=
  fun _ _ related => .inr ⟨same related, related⟩

/-- Two changes match if they keep states related. Like `upholds_modify` this is where all the work
of a comparison is done. -/
theorem follows_modify {change : σ → σ} {alter : τ → τ}
    (kept : ∀ {state other}, relation state other → relation (change state) (alter other)) :
    Follows excused relation (modify change) (modify alter) :=
  fun _ _ related => .inr ⟨rfl, kept related⟩

/-- Compound attempts follow one another part by part. A first part that fails with an excused error
excuses the whole, since its error is the error of both. -/
theorem follows_bind {first : Attempt σ β} {second : β → Attempt σ α} {initial : Attempt τ β}
    {final : β → Attempt τ α} (left : Follows excused relation first initial)
    (right : ∀ result, Follows excused relation (second result) (final result)) :
    Follows excused relation (first >>= second) (initial >>= final) := by
  intro state other related
  change (∃ error, (andThen first second state).1 = .error error ∧ excused error) ∨
    ((andThen initial final other).1 = (andThen first second state).1 ∧
      relation (andThen first second state).2 (andThen initial final other).2)
  obtain ⟨error, after, run, excuse⟩ | ⟨outcome, middle, between, run, follow, reached⟩ :=
    left.runs related
  · refine .inl ⟨error, ?_, excuse⟩
    simp only [andThen, run]
  · cases outcome with
    | ok result =>
      simp only [andThen, run, follow]
      exact right result _ _ reached
    | error error =>
      simp only [andThen, run, follow]
      exact .inr ⟨trivial, reached⟩

/-- By induction on the items, which are the same on both sides. -/
theorem follows_forEach {attempt : β → Attempt σ Unit} {trial : β → Attempt τ Unit}
    (each : ∀ item, Follows excused relation (attempt item) (trial item)) (items : List β) :
    Follows excused relation (forEach attempt items) (forEach trial items) := by
  induction items with
  | nil => exact follows_pure ()
  | cons item rest inductionHypothesis =>
    exact follows_bind (each item) fun _ => inductionHypothesis

/-- The collected lists are the same on both sides, too, because each result is. -/
theorem follows_mapEach {attempt : β → Attempt σ α} {trial : β → Attempt τ α}
    (each : ∀ item, Follows excused relation (attempt item) (trial item)) (items : List β) :
    Follows excused relation (mapEach attempt items) (mapEach trial items) := by
  induction items with
  | nil => exact follows_pure []
  | cons item rest inductionHypothesis =>
    exact follows_bind (each item) fun _ => follows_bind inductionHypothesis fun _ =>
      follows_pure _

end

end CoroutineVM.Attempt
