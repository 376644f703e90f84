import CoroutineVM.Proofs.Layout.Brackets
import CoroutineVM.Proofs.Machine.Calls
import CoroutineVM.Proofs.Machine.Underlay

/-!
# Calls over another bottom

A call cannot tell what lies on the stacks below it. Two stores that are alike but for the contents
of both stacks of one processor are brought to the same outcome by the same call on it, through the
same steps, as long as the host does not look at what is on those stacks either.

For the length of the call its coroutine is secluded: its own segments lie above the bottom, the
calls in it go back to heights above the bottom, and nobody else can enter it, whatever is done to
its guard. That is all that a step over another bottom needs to know.
-/

namespace CoroutineVM

open Processor

variable {W : Type} {host : Host W} {rules : Rules} {id : CoroutineId} {underlay : Underlay}

/-! ### Coroutines in a call -/

/-- What holds of a coroutine for the length of a call that began on this ground, whatever is done
to its guard. -/
structure Secluded (ground : Ground) (seen : Seen) : Prop where
  access : seen.coroutine.access = .executing
  nests : ∀ mark ∈ seen.marks, mark.Nests
  laid : Laid ground seen
  roomy : Roomy (2 ^ 53) seen.coroutine.processor

variable {ground : Ground}

/-- Moves of a coroutine in a call keep it secluded: none of them is by somebody else, and those in
the call stay above its bottom. -/
theorem Move.secluded {before after : Seen} (chunk : rules.chunk = ground.chunk)
    (move : Move rules id before after) (secluded : Secluded ground before) :
    Secluded ground after := by
  have inner := move.inner_of_nested secluded.access secluded.nests
  obtain ⟨_, _, room⟩ := inner.keepsSupplies
  have roomy := room _ secluded.roomy
  exact ⟨inner.access.trans secluded.access, inner.nests secluded.nests,
    inner.laid chunk secluded.roomy.room roomy.height secluded.laid, roomy⟩

section

variable {chunk : Chunk} {before : Processor}

/-- Something that takes up as much as there was when a call began. -/
structure Underlay.Matches (underlay : Underlay) (before : Processor) : Prop where
  values : underlay.values.length = before.values.height
  frames : underlay.frames.length = before.frames.height

/-- What the call has found is still there, so that the stacks reach up to the bottom. The induction
is on the marks, the last of which stands on it. -/
theorem Ground.Intact.reaches {callee : Value} {marks : List Mark} {values : List Value}
    {frames : List Frame} (nests : ∀ mark ∈ marks, mark.Nests)
    (intact : (Ground.ofCall chunk (some callee) before).Intact marks values frames) :
    before.values.height ≤ values.length ∧ before.frames.height ≤ frames.length := by
  induction marks generalizing values frames with
  | nil =>
    obtain ⟨rfl, rfl⟩ := intact
    exact ⟨Nat.le_refl _, Nat.le_of_eq (length_activeFrames _).symm⟩
  | cons mark rest inductionHypothesis =>
    obtain ⟨nest, restNests⟩ := List.forall_mem_cons.mp nests
    cases mark with
    | call valueHeight frameHeight mayYield =>
      obtain ⟨inner, outer, rfl, _, _, below⟩ := intact
      obtain ⟨values, frames⟩ := inductionHypothesis restNests below
      rw [List.length_take] at values
      rw [List.length_append]
      omega
    | wake => exact inductionHypothesis restNests intact
    | resume status => exact nest.elim
    | borrow => exact nest.elim

/-- Calls inside the call go back to heights that are not below the bottom, because they have begun
on what stands on it. -/
theorem Ground.Torn.reaches {callee : Value} {valueHeight frameHeight : Nat} {mayYield : Bool}
    {rest : List Mark} {values : List Value} {frames : List Frame}
    (nests : ∀ mark ∈ rest, mark.Nests)
    (torn : (Ground.ofCall chunk (some callee) before).Torn
      (.call valueHeight frameHeight mayYield :: rest) values frames) :
    (before.values.height ≤ valueHeight ∧ before.frames.height ≤ frameHeight) ∧
      before.values.height ≤ values.length ∧ before.frames.height ≤ frames.length := by
  obtain ⟨inner, outer, rfl, rfl, below⟩ := torn
  obtain ⟨values, frames⟩ := below.reaches nests
  rw [List.length_take] at values
  rw [List.length_append]
  omega

/-- Code of a coroutine in the call runs above the bottom, since its top frame belongs to a segment
that stands on the floor of the call or further up. -/
theorem Secluded.above {callee : Value} {seen : Seen} (fits : underlay.Matches before)
    (secluded : Secluded (.ofCall chunk (some callee) before) seen) (whole : seen.standing.Whole)
    (driven : Driven seen.marks) : Above underlay seen.coroutine.processor := by
  have intact := secluded.laid.whole whole
  have nests := secluded.nests
  generalize seen.marks = marks at intact nests driven
  cases marks with
  | nil => exact driven.elim
  | cons mark rest =>
    cases mark with
    | call valueHeight frameHeight mayYield =>
      have floor := (intact.torn.reaches (List.forall_mem_cons.mp nests).2).1
      obtain ⟨inner, outer, split, rfl, segment, _⟩ := intact
      obtain ⟨frame, inner, _, lower, rfl, above, count, callee, window⟩ := segment.top
      have deep := window.deep
      have values := fits.values
      have frames := fits.frames
      have height := congrArg List.length split
      rw [length_activeFrames, List.length_append, List.length_cons] at height
      refine ⟨by omega, frame, count, ⟨?_, ?_, by omega⟩, by omega⟩
      · rw [top_activeFrames, split]
        rfl
      · rw [BoundedStack.get?_eq]
        exact window.reads
    | resume status => exact (nests _ List.mem_cons_self).elim
    | wake => exact driven.elim
    | borrow => exact driven.elim

/-- Somewhere in the call its segments are whole, or a call inside it is about to be closed. A
resume of the coroutine is never closed there, because the call has found it in use. -/
theorem whole_or_call (machine : Machine W)
    (nests : ∀ mark ∈ marks id machine.pending, mark.Nests) :
    (machine.seen id).standing.Whole ∨ ∃ valueHeight frameHeight mayYield rest,
      marks id machine.pending = .call valueHeight frameHeight mayYield :: rest := by
  obtain ⟨store, world, focus, pending⟩ := machine
  by_cases carried : focus.carrier? pending = some id
  · cases focus with
    | code on pointer =>
      left
      rw [Machine.seen, standing, if_pos carried]
      trivial
    | host on event =>
      left
      rw [Machine.seen, standing, if_pos carried]
      trivial
    | settled outcome =>
      right
      cases pending with
      | nil => cases carried
      | cons waiting rest =>
        change waiting.closes? = some id at carried
        dsimp only at nests ⊢
        cases waiting with
        | closeCall on valueHeight frameHeight mayYield stopwatch =>
          cases carried
          rw [marks_cons, Pending.mark_closeCall]
          exact ⟨_, _, _, _, rfl⟩
        | closeResume target status stopwatch =>
          cases carried
          rw [marks_cons, Pending.mark_closeResume] at nests
          exact (nests _ List.mem_cons_self).elim
        | _ => cases carried
  · left
    rw [Machine.seen, standing, if_neg carried]
    trivial

/-- The stacks of a coroutine in the call always reach up to the bottom. -/
theorem Secluded.upon {callee : Value} {machine : Machine W} (fits : underlay.Matches before)
    (secluded : Secluded (.ofCall chunk (some callee) before) (machine.seen id)) :
    Upon underlay (machine.store.processor id) := by
  have reaches : before.values.height ≤ (machine.store.processor id).values.toList.length ∧
      before.frames.height ≤ (machine.store.processor id).activeFrames.length := by
    obtain whole | ⟨_, _, _, rest, marked⟩ := whole_or_call machine secluded.nests
    · exact (secluded.laid.whole whole).reaches secluded.nests
    · have nests := secluded.nests
      have torn := secluded.laid.below
      simp only [Machine.seen, marked] at nests torn
      exact (torn.reaches (List.forall_mem_cons.mp nests).2).2
  rw [length_activeFrames, BoundedStack.length_toList] at reaches
  exact ⟨fits.values ▸ reaches.1, fits.frames ▸ reaches.2⟩

/-- A machine in the call does not come near the bottom in its next step: code stands above it, and
a call that is closed goes back to a height above it. -/
theorem Secluded.parted {callee : Value} {machine : Machine W} (fits : underlay.Matches before)
    (orderly : Orderly machine)
    (secluded : Secluded (.ofCall chunk (some callee) before) (machine.seen id)) :
    machine.Parted id underlay := by
  have known : machine.store.Has id := by
    by_cases known : machine.store.Has id
    · exact known
    · have access := secluded.access
      rw [Machine.seen, Store.coroutine_gone known] at access
      cases access
  refine ⟨known, ?_, secluded.upon fits, ?_, ?_⟩
  · exact fun free => by cases free.symm.trans secluded.access
  · intro on pointer coding
    have closing : Fits (.closing on) machine.pending := by
      have suits := orderly.suits
      rw [coding] at suits
      exact suits
    have driven := driven_of_closing closing
    refine ⟨known, orderly.known on driven.ne_nil, ?_⟩
    rintro rfl
    refine secluded.above fits ?_ driven
    rw [Machine.seen, coding, standing_code, if_pos rfl]
    trivial
  · obtain ⟨store, world, focus, pending⟩ := machine
    cases pending with
    | nil => exact fun _ member => by cases member
    | cons waiting pending =>
      intro _ member
      obtain rfl := Option.some.inj member
      have nests := secluded.nests
      have torn := secluded.laid.below
      cases waiting with
      | closeCall on valueHeight frameHeight mayYield stopwatch =>
        rintro rfl
        simp only [Machine.seen, marks_cons, Pending.mark_closeCall, Option.toList_some,
          List.singleton_append] at nests torn
        have floor := (torn.reaches (List.forall_mem_cons.mp nests).2).1
        exact ⟨fits.values ▸ floor.1, fits.frames ▸ floor.2⟩
      | closeResume target status stopwatch =>
        rintro rfl
        simp only [Machine.seen, marks_cons, Pending.mark_closeResume] at nests
        exact nests _ List.mem_cons_self
      | _ => trivial

end

/-! ### Runs of a call -/

/-- Two machines stand at the same place in stores that are alike. -/
structure Machine.Abreast (id : CoroutineId) (first second : Machine W) : Prop where
  stores : Alike id first.store second.store
  world : second.world = first.world
  focus : second.focus = first.focus
  pending : second.pending = first.pending

/-- Whatever the first machine goes back with to those outside, the second one does, too, and leaves
a store that is alike. -/
def Machine.Follows (host : Host W) (id : CoroutineId) (outer : List Pending)
    (first second : Machine W) : Prop :=
  ∀ after later outcome, Machine.Returns host outer first after later outcome →
    ∃ other, Machine.Returns host outer second other later outcome ∧ Alike id after other

/-- A machine in a call that began on this ground. -/
structure Machine.InCall (ground : Ground) (id : CoroutineId) (machine : Machine W) : Prop where
  orderly : Orderly machine
  chunk : machine.store.chunk = ground.chunk
  secluded : Secluded ground (machine.seen id)

/-- A step keeps a machine in the call, since the coroutine only moves in the ways that keep it
secluded. -/
theorem Machine.InCall.step {machine : Machine W} (inCall : machine.InCall ground id)
    (host : Host W) :
    (machine.step host).InCall ground id := by
  have advances : Advances (machine.store.rules ⟨True, False, fun _ => True⟩) machine
      (machine.step host) :=
    step_advances host inCall.orderly (fun _ _ => trivial) (fun _ _ => trivial) fun _ _ _ => trivial
  exact ⟨advances.orderly, advances.lasts.chunk.trans inCall.chunk,
    Moves.induct (Move.secluded inCall.chunk) (advances.moves id) inCall.secluded⟩

section

variable {chunk : Chunk} {callee : Value} {before : Processor} {machine : Machine W}

/-- The run of a call over another bottom is its run: the induction is on the steps, and each step
does the same there. -/
theorem Machine.InCall.run_rebase (blind : Blind id host) (fits : underlay.Matches before)
    (inCall : machine.InCall (.ofCall chunk (some callee) before) id) (steps : Nat) :
    (machine.run host steps).Abreast id ((machine.rebase id underlay).run host steps) := by
  induction steps generalizing machine with
  | zero => exact ⟨alike_rebase (inCall.secluded.upon fits), rfl, rfl, rfl⟩
  | succ steps inductionHypothesis =>
    rw [Machine.run, Machine.run,
      show (machine.rebase id underlay).atRest = machine.atRest from rfl]
    split
    · exact ⟨alike_rebase (inCall.secluded.upon fits), rfl, rfl, rfl⟩
    · rw [(inCall.secluded.parted fits inCall.orderly).step_rebase blind]
      exact inductionHypothesis (inCall.step host)

/-- What a call comes back with over another bottom is what it comes back with. If it does not come
back over the one it does not over the other. -/
theorem Machine.InCall.follows (blind : Blind id host) (fits : underlay.Matches before)
    (inCall : machine.InCall (.ofCall chunk (some callee) before) id) (outer : List Pending) :
    Machine.Follows host id outer (machine.under outer)
      ((machine.rebase id underlay).under outer) := by
  intro after later outcome returns
  generalize same : machine.under outer = whole at returns
  induction returns generalizing machine with
  | back store world outcome =>
    obtain ⟨isolatedStore, isolatedWorld, focus, pending⟩ := machine
    simp only [Machine.under, Machine.mk.injEq, List.append_left_eq_self] at same
    obtain ⟨rfl, rfl, rfl, rfl⟩ := same
    exact ⟨_, .back _ _ _, alike_rebase (inCall.secluded.upon fits)⟩
  | onward busy rest inductionHypothesis =>
    subst same
    have moving := busy_under.mpr busy
    have steps := (inCall.secluded.parted fits inCall.orderly).step_rebase blind
    obtain ⟨other, returns, alike⟩ := inductionHypothesis (inCall.step host)
      (step_under machine moving).symm
    refine ⟨other, .onward busy ?_, alike⟩
    rw [step_under (machine.rebase id underlay) moving, steps]
    exact returns

end

/-- A processor on which a call can begin: whoever calls has taken it, and it has no more values
than fit. No more fit than a number of arguments can tell. -/
structure Engaged (id : CoroutineId) (store : Store) : Prop where
  known : store.Has id
  main : store.Has Store.main
  access : store.access id = .executing
  roomy : Roomy (2 ^ 53) (store.processor id)

/-- What a call needs of its coroutine concerns heights and access, so that it is there in stores
that are alike. -/
theorem Alike.engaged {first second : Store} (alike : Alike id first second)
    (engaged : Engaged id first) : Engaged id second := by
  obtain ⟨underlay, rfl, values, _⟩ := alike.exists_rebase
  have height := BoundedStack.height_rebase (Nat.le_of_eq values)
  refine ⟨(Store.has_rebase id).mpr engaged.known, (Store.has_rebase _).mpr engaged.main,
    (Store.access_rebase id).trans engaged.access, ?_⟩
  rw [Store.processor_rebase engaged.known]
  exact ⟨height ▸ engaged.roomy.room, engaged.roomy.limited⟩

section

variable {first second : Store} (callee : Value) (arguments : List Value) (world : W)

/-- The beginning of a call, let in or not, is a machine in that call. If the guard refuses it
nothing has been put on the stacks, and otherwise what has been put there is the first segment of
the call. -/
theorem Engaged.inCall (engaged : Engaged id first) :
    (Machine.enter (first.beginCall id (some callee) arguments) world []).InCall
      (.ofCall first.chunk (some callee) (first.processor id)) id := by
  cases admitted : first.passGuard id with
  | error error =>
    rw [enter_beginCall_refused admitted]
    have intact : (Ground.ofCall first.chunk (some callee) (first.processor id)).Intact []
        (first.processor id).values.toList (first.processor id).activeFrames :=
      ⟨rfl, rfl⟩
    exact ⟨⟨.inl trivial, fun _ marked => absurd rfl marked, engaged.main⟩, rfl,
      ⟨engaged.access, (fun _ member => by cases member), .of_intact intact, engaged.roomy⟩⟩
  | ok guard =>
    cases prepared : enterFromHost first.chunk (some callee) arguments
      { first.processor id with guard := guard, mayYield := false } with
    | mk entered processor =>
      obtain ⟨_, _, _, _, room⟩ := aligned_of_calls prepared
      have still := room _ engaged.roomy
      obtain ⟨orderly, lasts, seen⟩ :=
        call_isolated engaged.known engaged.main admitted prepared world
      refine ⟨orderly, lasts.chunk, ?_⟩
      rw [seen]
      exact ⟨engaged.access, by simp [Mark.Nests],
        laid_call prepared still.height rfl rfl (fun missing => missing)
          ⟨take_floorOfCall (some callee) (first.processor id), rfl⟩, still⟩

/-- A call in the second store is the call in the first one over another bottom. -/
theorem Alike.enter (alike : Alike id first second) (known : first.Has id) :
    ∃ underlay : Underlay, underlay.Matches (first.processor id) ∧ ∀ outer,
      Machine.enter (second.beginCall id (some callee) arguments) world outer =
        ((Machine.enter (first.beginCall id (some callee) arguments) world []).rebase id
          underlay).under outer := by
  obtain ⟨underlay, rfl, values, frames⟩ := alike.exists_rebase
  refine ⟨underlay, ⟨values, frames⟩, fun outer => ?_⟩
  rw [Store.rebase_beginCall known fun _ => ⟨Nat.le_of_eq values, Nat.le_of_eq frames⟩]
  exact enter_under _ world []

/-- A call on a coroutine of the one store runs beside the same call on that of the other. The
bottom that takes the one to the other is what both stacks held, so that the first entry is made
above it. -/
theorem Alike.follows (alike : Alike id first second) (blind : Blind id host)
    (engaged : Engaged id first) (outer : List Pending) :
    Machine.Follows host id outer
      (Machine.enter (first.beginCall id (some callee) arguments) world outer)
      (Machine.enter (second.beginCall id (some callee) arguments) world outer) := by
  obtain ⟨underlay, fits, same⟩ := alike.enter callee arguments world engaged.known
  have follows := (engaged.inCall callee arguments world).follows blind fits outer
  rw [← same outer, ← enter_under] at follows
  exact follows

/-- A call does not depend on what lies below it on the two stacks of its processor. In stores that
are alike it goes through the same machines, so that the host is told the same and answers the same,
and it comes back to those outside with the same outcome, or in neither store. -/
theorem call_ignores_below (alike : Alike id first second) (blind : Blind id host)
    (engaged : Engaged id first) :
    let entered := fun store : Store =>
      Machine.enter (store.beginCall id (some callee) arguments) world
    (∀ steps, ((entered first []).run host steps).Abreast id ((entered second []).run host steps)) ∧
    ∀ outer, Machine.Follows host id outer (entered first outer) (entered second outer) ∧
      Machine.Follows host id outer (entered second outer) (entered first outer) := by
  intro entered
  refine ⟨fun steps => ?_, fun outer => ⟨alike.follows callee arguments world blind engaged outer,
    (alike.symm engaged.known).follows callee arguments world blind (alike.engaged engaged) outer⟩⟩
  obtain ⟨underlay, fits, same⟩ := alike.enter callee arguments world engaged.known
  have isolated : entered second [] = (entered first []).rebase id underlay := by
    rw [show entered second [] = _ from same []]
    simp [Machine.under, entered]
  rw [isolated]
  exact (engaged.inCall callee arguments world).run_rebase blind fits steps

end

/-! ### A call over two different bottoms -/

/-- The script of a main body that keeps a value, with these on its stacks, as a callback may find
it. -/
def Store.sampleOver (value : Value) (frame : Frame) : Store :=
  (Store.sample keepingChunk).setAccess Store.main .executing
    |>.modifyProcessor Store.main fun processor =>
      { processor with
        values := { processor.values with items := #[value] }
        frames := { processor.frames with items := #[frame] } }

/-- Two bottoms of one value and one frame, with nothing in common. -/
theorem main_ignores_below :
    let first := Store.sampleOver .nil ⟨0, .host, ⟨0, []⟩, 0, 0⟩
    let second := Store.sampleOver (.boolean true) ⟨7, .instruction 3, ⟨5, [2]⟩, 4, 1⟩
    let entered := fun store : Store =>
      Machine.enter (store.beginCall Store.main (some .mainBody) []) () []
    Alike Store.main first second ∧ Blind Store.main Host.silent ∧ Engaged Store.main first ∧
      ((entered first).run .silent 6).Abreast Store.main ((entered second).run .silent 6) := by
  intro first second entered
  have alike : Alike Store.main first second :=
    ⟨#[.boolean true], #[⟨7, .instruction 3, ⟨5, [2]⟩, 4, 1⟩], rfl, rfl, rfl⟩
  have blind : Blind Store.main Host.silent := ⟨fun _ _ _ _ => rfl, fun _ _ _ _ => rfl⟩
  have known : first.Has Store.main := Nat.zero_lt_one
  have engaged : Engaged Store.main first := ⟨known, known, rfl, by decide, by decide⟩
  exact ⟨alike, blind, engaged, (call_ignores_below .mainBody [] () alike blind engaged).1 6⟩

end CoroutineVM
