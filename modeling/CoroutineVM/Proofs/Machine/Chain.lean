import CoroutineVM.Proofs.Machine.Resumes

/-!
# The chain of those who are entered

A processor that runs has been taken through its handle, by a resume or by a call of the script from
outside, and whoever has taken it waits to give it back. Those who wait therefore tell which
processors have been taken and in which order. As long as the functions of the host call and resume
through what they are given, and not through handles, everyone in this chain has been entered from
the next one: the first one runs and all others are normal, but for the script's own coroutine,
which keeps its status.
-/

namespace CoroutineVM

variable {W : Type} {host : Host W} {id : CoroutineId}

/-! ### Who has been taken -/

/-- The coroutine whose processor is given back by someone who waits. -/
def Pending.lent? : Pending → Option CoroutineId
  | .closeResume target _ _ => some target
  | .release id => some id
  | .hostFunction _ _ | .resumeInstruction _ _ | .closeCall _ _ _ _ _ | .wake _ | .hostCall _
  | .hostResume _ => none

/-- The coroutines whose processors have been taken through their handles, innermost first. -/
def chain (pending : List Pending) : List CoroutineId := pending.filterMap Pending.lent?

/-- Whether whoever has put this mark gives the processor back. -/
def Mark.lends : Mark → Bool
  | .resume _ | .borrow => true
  | .call _ _ _ | .wake => false

/-- Someone who gives no processor back is not seen in the chain. -/
theorem chain_cons (waiting : Pending) (rest : List Pending) :
    chain (waiting :: rest) = waiting.lent?.toList ++ chain rest := by
  rw [chain, List.filterMap_cons]
  cases waiting.lent? <;> rfl

/-- A coroutine is in the chain as often as its marks say that it has been taken. So what marks
forbid twice is in the chain once. -/
theorem count_chain (id : CoroutineId) (pending : List Pending) :
    (chain pending).count id = (marks id pending).countP Mark.lends := by
  induction pending with
  | nil => rfl
  | cons waiting rest inductionHypothesis =>
    rw [chain_cons, marks_cons, List.count_append, List.countP_append, inductionHypothesis]
    congr 1
    cases waiting with
    | closeResume target before stopwatch =>
      by_cases same : target = id <;> simp [Pending.lent?, Pending.mark?, Mark.lends, same]
    | release on =>
      by_cases same : on = id <;> simp [Pending.lent?, Pending.mark?, Mark.lends, same]
    | closeCall on valueHeight frameHeight mayYield stopwatch =>
      by_cases same : on = id <;> simp [Pending.lent?, Pending.mark?, Mark.lends, same]
    | wake on => by_cases same : on = id <;> simp [Pending.lent?, Pending.mark?, Mark.lends, same]
    | _ => rfl

/-- A processor in use has been taken once: only its outermost mark is that of a resume or a
loan. -/
theorem Shaped.countP_lends {marks : List Mark} (shaped : Shaped id marks) :
    marks.countP Mark.lends = if marks = [] then 0 else 1 := by
  induction marks with
  | nil => rfl
  | cons mark rest inductionHypothesis =>
    cases mark with
    | call valueHeight frameHeight mayYield =>
      obtain ⟨usable, rest⟩ := shaped
      simpa [Mark.lends, usable.ne_nil] using inductionHypothesis rest
    | resume before =>
      obtain ⟨_, _, rfl⟩ := shaped
      rfl
    | wake =>
      obtain ⟨_, driven, rest⟩ := shaped
      simpa [Mark.lends, driven.ne_nil] using inductionHypothesis rest
    | borrow =>
      obtain ⟨_, rfl⟩ := shaped
      rfl

section

variable {allowances : Allowances} {machine : Machine W}

/-- So the chain consists of the coroutines on which someone waits. -/
theorem Machine.Sound.mem_chain (sound : machine.Sound allowances) (id : CoroutineId) :
    id ∈ chain machine.pending ↔ marks id machine.pending ≠ [] := by
  have shaped : Shaped id (marks id machine.pending) := (sound.coroutines id).handled.shaped
  rw [← List.count_pos_iff, count_chain, shaped.countP_lends]
  split <;> simp_all

/-- And none of them is in it twice. -/
theorem Machine.Sound.chain_nodup (sound : machine.Sound allowances) :
    (chain machine.pending).Nodup := by
  rw [List.nodup_iff_count_le_one]
  intro id
  have shaped : Shaped id (marks id machine.pending) := (sound.coroutines id).handled.shaped
  rw [count_chain, shaped.countP_lends]
  split <;> simp

/-- A coroutine waits to be woken by the innermost one who waits on it, or by nobody: nobody is
entered before being woken. -/
theorem Shaped.wake {marks : List Mark} (shaped : Shaped id marks) (waits : .wake ∈ marks) :
    ∃ rest, marks = .wake :: rest := by
  have unusable : ∀ {marks : List Mark}, Shaped id marks → Usable marks → .wake ∉ marks := by
    intro marks shaped usable waits
    induction marks with
    | nil => cases waits
    | cons mark rest inductionHypothesis =>
      cases mark with
      | call valueHeight frameHeight mayYield =>
        exact inductionHypothesis shaped.2 shaped.1 (by simpa using waits)
      | resume before =>
        obtain ⟨_, _, rfl⟩ := shaped
        simp at waits
      | wake => exact usable
      | borrow =>
        obtain ⟨_, rfl⟩ := shaped
        simp at waits
  cases marks with
  | nil => cases waits
  | cons mark rest =>
    cases mark with
    | wake => exact ⟨rest, rfl⟩
    | _ => exact absurd waits (unusable shaped trivial)

end

/-! ### Who has been entered from whom -/

/-- The coroutine whose code goes on with an outcome that is handed to someone who waits. -/
def Pending.goesOn? : Pending → Option CoroutineId
  | .hostFunction on _ | .resumeInstruction on _ | .hostCall on | .hostResume on => some on
  | .closeCall _ _ _ _ _ | .closeResume _ _ _ | .wake _ | .release _ => none

/-- The outermost part of those who wait begins with the code of this coroutine. -/
def Continues (id : CoroutineId) : List Pending → Prop
  | [] => False
  | waiting :: _ => waiting.goesOn? = some id

/-- Who waits directly outside of someone else. A call has been asked for by the coroutine that is
called or from outside; a resume by the script's own coroutine, by one that has become normal, or
from outside. -/
def Joins : Pending → List Pending → Prop
  | .closeCall id _ _ _ _, outer => outer = [.release id] ∨ Continues id outer
  | .closeResume _ _ _, outer =>
    outer = [] ∨ Continues Store.main outer ∨ ∃ id rest, outer = .wake id :: rest
  | .wake id, outer => Continues id outer
  | .hostFunction _ _, _ | .resumeInstruction _ _, _ | .release _, _ | .hostCall _, _
  | .hostResume _, _ => True

/-- Everyone who waits has been put outside of the one before. -/
def Linked : List Pending → Prop
  | [] => True
  | waiting :: rest => Joins waiting rest ∧ Linked rest

/-- One more who waits, put outside of whom he has to be. -/
theorem Linked.cons (waiting : Pending) {rest : List Pending} (joins : Joins waiting rest)
    (linked : Linked rest) : Linked (waiting :: rest) := ⟨joins, linked⟩

/-- Behind someone who goes on in a coroutine lies whoever closes what that coroutine does. Those in
between give no processor back, so that the chain is the same from there on. -/
theorem closing_of_continues {outer : List Pending} (continues : Continues id outer)
    (fits : Fits .other outer) (linked : Linked outer) :
    ∃ inner, inner <:+ outer ∧ inner.length < outer.length ∧ chain outer = chain inner ∧
      Fits (.closing id) inner ∧ Linked inner := by
  have behind : ∀ {waiting : Pending} {rest : List Pending}, waiting.lent? = none →
      Fits (.function id) rest → Linked rest →
      ∃ inner, inner <:+ waiting :: rest ∧ inner.length < (waiting :: rest).length ∧
        chain (waiting :: rest) = chain inner ∧ Fits (.closing id) inner ∧ Linked inner := by
    intro waiting rest kept fits linked
    match rest, fits with
    | .hostFunction on resumeAt :: inner, fits =>
      obtain ⟨rfl, closing⟩ := fits
      refine ⟨inner, ⟨[waiting, .hostFunction on resumeAt], rfl⟩, ?_, ?_, closing, linked.2⟩
      · simp only [List.length_cons]
        omega
      · rw [chain_cons, kept]
        rfl
  cases outer with
  | nil => exact continues.elim
  | cons waiting rest =>
    cases waiting with
    | hostFunction on resumeAt =>
      obtain rfl := Option.some.inj continues
      exact ⟨rest, List.suffix_cons _ _, Nat.lt_succ_self _, rfl, fits, linked.2⟩
    | resumeInstruction on resumeAt =>
      obtain rfl := Option.some.inj continues
      exact ⟨rest, List.suffix_cons _ _, Nat.lt_succ_self _, rfl, fits, linked.2⟩
    | hostCall on =>
      obtain rfl := Option.some.inj continues
      exact behind rfl fits linked.2
    | hostResume on =>
      obtain rfl := Option.some.inj continues
      exact behind rfl fits linked.2
    | _ => cases continues

/-- A coroutine has been resumed from the code of another one, which may have to be woken first when
that resume has been closed. -/
def ResumedFrom (pending : List Pending) (inner outer : CoroutineId) : Prop :=
  ∃ before stopwatch rest, .closeResume inner before stopwatch :: rest <:+ pending ∧
    (Continues outer rest ∨ ∃ later, rest = .wake outer :: later ∧ Continues outer later)

/-- What has been resumed from whom stays true when others begin to wait inside of them. -/
theorem ResumedFrom.mono {few many : List Pending} (suffix : few <:+ many)
    {inner outer : CoroutineId} (resumed : ResumedFrom few inner outer) :
    ResumedFrom many inner outer := by
  obtain ⟨before, stopwatch, rest, inside, continues⟩ := resumed
  exact ⟨before, stopwatch, rest, inside.trans suffix, continues⟩

/-- What those who wait tell about the coroutines of a chain: everyone has been resumed from the
next one, and all but the first one wait to be woken, except for the script's own one. -/
structure Tells (pending : List Pending) (first : CoroutineId) (tail : List CoroutineId) :
    Prop where
  resumed : (first :: tail).IsChain (ResumedFrom pending)
  woken : ∀ id ∈ tail, id ≠ Store.main → .wake id ∈ pending

/-- So does all that those who wait tell. -/
theorem Tells.mono {few many : List Pending} (suffix : few <:+ many) {first : CoroutineId}
    {tail : List CoroutineId} (tells : Tells few first tail) : Tells many first tail where
  resumed := tells.resumed.imp fun _ _ => .mono suffix
  woken := fun id later other => suffix.mem (tells.woken id later other)

/-- A resume that is to be closed puts its coroutine before the chain of the one that goes on
then. -/
theorem Tells.cons {outer : List Pending} {target : CoroutineId} {before : CoroutineStatus}
    {stopwatch : Option Stopwatch} {tail : List CoroutineId} (tells : Tells outer id tail)
    (continues : Continues id outer ∨ ∃ later, outer = .wake id :: later ∧ Continues id later)
    (woken : id ≠ Store.main → .wake id ∈ outer) :
    Tells (.closeResume target before stopwatch :: outer) target (id :: tail) where
  resumed := by
    have wider := tells.mono (List.suffix_cons (.closeResume target before stopwatch) outer)
    exact .cons_cons ⟨before, stopwatch, outer, List.suffix_refl _, continues⟩ wider.resumed
  woken := by
    intro other member apart
    refine List.mem_cons_of_mem _ ?_
    obtain rfl | later := List.mem_cons.mp member
    · exact woken apart
    · exact tells.woken other later apart

/-- The chain begins with the coroutine whose call or resume is closed next. The induction is on the
number of those who wait: behind the close of a call or a resume it goes on with the coroutine that
has asked for it. -/
theorem chain_of_closing {pending : List Pending} (closing : Fits (.closing id) pending)
    (linked : Linked pending) : ∃ tail, chain pending = id :: tail ∧ Tells pending id tail := by
  induction size : pending.length using Nat.strong_induction_on generalizing pending id with
  | _ size inductionHypothesis =>
  subst size
  -- What lies outside of someone who goes on in a coroutine is a shorter list of the same kind.
  have further : ∀ {outer : List Pending} {id : CoroutineId}, Continues id outer →
      Fits .other outer → Linked outer → outer.length < pending.length →
      ∃ tail, chain outer = id :: tail ∧ Tells outer id tail := by
    intro outer id continues fits linked shorter
    obtain ⟨inner, suffix, less, same, closing, linked⟩ :=
      closing_of_continues continues fits linked
    obtain ⟨tail, chained, tells⟩ := inductionHypothesis _ (less.trans shorter) closing linked rfl
    exact ⟨tail, same.trans chained, tells.mono suffix⟩
  cases pending with
  | nil => exact closing.elim
  | cons waiting outer =>
  obtain ⟨same, fits⟩ := closing
  cases waiting with
  | closeCall on valueHeight frameHeight mayYield stopwatch =>
    obtain rfl := Option.some.inj same
    obtain rfl | continues := linked.1
    · exact ⟨[], rfl, .singleton _, fun _ member => by cases member⟩
    · obtain ⟨tail, chained, tells⟩ := further continues fits linked.2 (Nat.lt_succ_self _)
      exact ⟨tail, chained, tells.mono (List.suffix_cons _ _)⟩
  | closeResume target before stopwatch =>
    obtain rfl := Option.some.inj same
    refine ⟨chain outer, rfl, ?_⟩
    obtain rfl | continues | ⟨resumer, rest, rfl⟩ := linked.1
    · exact ⟨.singleton _, fun _ member => by cases member⟩
    · obtain ⟨tail, chained, tells⟩ := further continues fits linked.2 (Nat.lt_succ_self _)
      rw [chained]
      exact tells.cons (.inl continues) fun other => absurd rfl other
    · obtain ⟨tail, chained, tells⟩ := further linked.2.1 fits linked.2.2 (by
        simp only [List.length_cons]
        omega)
      have same : chain (.wake resumer :: rest) = resumer :: tail := chained
      rw [same]
      exact (tells.mono (List.suffix_cons _ _)).cons (.inr ⟨rest, rfl, linked.2.1⟩) fun _ =>
        List.mem_cons_self
  | _ => cases same

/-! ### Links last -/

/-- Calls and resumes that a host function asks for through a handle, as one does from outside. -/
def Request.usesHandle : Request → Bool
  | .callScript _ _ | .resumeHandle _ _ => true
  | _ => false

section

variable {store : Store} {world : W} {outer : List Pending}

/-- A call joins those who wait, or it is turned away and nobody does. -/
theorem linked_call (linked : Linked outer) (joins : outer = [.release id] ∨ Continues id outer)
    (callee : Option Value) (arguments : List Value) (world : W) :
    Linked (Machine.enter (store.beginCall id callee arguments) world outer).pending := by
  rw [Store.beginCall]
  split
  · exact linked
  · exact ⟨joins, linked⟩

/-- So does a resume. That its close joins those outside need only be known if it is let in. -/
theorem linked_resume (linked : Linked outer) {target : CoroutineId}
    (joins : (∃ guard, store.Admits target guard) →
      outer = [] ∨ Continues Store.main outer ∨ ∃ id rest, outer = .wake id :: rest)
    (arguments : List Value) (world : W) :
    Linked (Machine.enter (store.beginResume target arguments) world outer).pending := by
  obtain ⟨error, refuses⟩ | ⟨guard, admits⟩ := refuses_or_admits store target
  · rw [enter_beginResume_refused refuses]
    exact linked
  · rw [enter_beginResume admits rfl]
    exact ⟨joins ⟨guard, admits⟩, linked⟩

/-- A coroutine that is running becomes normal for the time of the resume, and any other one does
not. -/
theorem Store.hands (store : Store) (id target : CoroutineId) :
    ∃ handed waiting, store.Hands id target handed waiting := by
  by_cases apart : store.status id = .running ∧ id ≠ target
  · exact ⟨_, _, .waits apart.1 apart.2⟩
  · exact ⟨_, _, .stays apart⟩

/-- A coroutine in use that is not the script's own one is running, so that it becomes normal before
it resumes another one. -/
theorem linked_childResume (linked : Linked outer) (continues : Continues id outer)
    (running : id ≠ Store.main → store.status id = .running)
    (executing : store.access id = .executing) (target : CoroutineId) (arguments : List Value)
    (world : W) :
    Linked (Machine.enter (store.beginChildResume id target arguments) world outer).pending := by
  obtain ⟨handed, waiting, hands⟩ := store.hands id target
  rw [hands.enter]
  cases hands with
  | waits =>
    exact linked_resume (.cons (.wake id) continues linked)
      (fun _ => .inr (.inr ⟨_, _, rfl⟩)) arguments
      world
  | stays apart =>
    refine linked_resume linked (fun ⟨guard, admits⟩ => .inr (.inl ?_)) arguments world
    have different : id ≠ target := by
      rintro rfl
      cases executing.symm.trans admits.free
    have isMain : id = Store.main :=
      Classical.byContradiction fun other => apart ⟨running other, different⟩
    exact isMain ▸ continues

/-- The push of a result leaves those who wait as they are. -/
theorem pending_pushResult (resumeAt : Nat) (value : Value) (pending : List Pending) :
    (Machine.pushResult id resumeAt value store world pending).pending = pending := by
  rw [Machine.pushResult]
  split <;> rfl

/-- Whoever is handed an outcome waits no longer, and nobody else is concerned. -/
theorem pending_stepSettled (outcome : Outcome) (waiting : Pending) (pending : List Pending) :
    (Machine.stepSettled host outcome waiting store world pending).pending = pending := by
  cases waiting with
  | hostFunction on resumeAt =>
    cases outcome with
    | ok exit => exact pending_pushResult resumeAt _ pending
    | error error => rfl
  | resumeInstruction on resumeAt =>
    cases outcome with
    | ok exit => exact pending_pushResult resumeAt _ pending
    | error error =>
      simp only [Machine.stepSettled]
      split
      · rfl
      · exact pending_pushResult resumeAt _ pending
  | _ => rfl

end

section

variable {allowances : Allowances} {machine : Machine W}

/-- A function of the host that runs in a coroutine is about to call or to resume through a
handle. -/
def Machine.Bypasses (host : Host W) (machine : Machine W) : Prop :=
  ∃ id event, machine.focus = .host id event ∧ id ≠ Store.main ∧
    (host.respond id event machine.store machine.world).2.usesHandle = true

/-- The coroutine that a machine works on runs, unless it is the script's own one. -/
theorem Machine.Sound.running (sound : machine.Sound allowances)
    (driven : Driven (marks id machine.pending)) :
    machine.store.Has id ∧ (id ≠ Store.main → machine.store.status id = .running) ∧
      machine.store.access id = .executing := by
  have handled := (sound.coroutines id).handled
  exact ⟨sound.orderly.known id driven.ne_nil,
    fun other => (handled.status other).running driven.usable, handled.access.mpr driven.ne_nil⟩

/-- On the script's own processor a handle does what the function of the host could do without it:
calls are turned away, and there is nobody who becomes normal. -/
theorem Machine.Sound.linked_step (sound : machine.Sound allowances)
    (contained : ¬ machine.Bypasses host) (linked : Linked machine.pending) :
    Linked (machine.step host).pending := by
  obtain ⟨store, world, focus, pending⟩ := machine
  cases focus with
  | code id pointer =>
    obtain ⟨known, running, executing⟩ := sound.running (driven_of_closing sound.orderly.suits)
    rw [Machine.step, Machine.stepCode]
    split
    next => exact linked
    next instruction _ =>
      have effects := Store.execute_effects instruction (pointer + 1) known
      split
      next => exact linked
      next => exact linked
      next => exact linked
      next => exact linked
      next => exact ⟨trivial, linked⟩
      next target arguments resumeAt after reached =>
        have touches := effects.of_ok reached
        obtain ⟨processor, became, _⟩ := touches.own
        refine linked_childResume (.cons (.resumeInstruction id resumeAt) trivial linked) rfl
          (fun other => ?_) ?_ target arguments world
        · exact (steady_touched touches id known).trans (running other)
        · rw [Store.access, became]
          exact executing
  | host id event =>
    obtain ⟨known, running, executing⟩ := sound.running (driven_of_function sound.orderly.suits)
    have onMain : (host.respond id event store world).2.usesHandle = true → id = Store.main :=
      fun uses => Classical.byContradiction fun other => contained ⟨id, event, rfl, other, uses⟩
    rw [Machine.step]
    generalize host.respond id event store world = answer at onMain
    obtain ⟨later, request⟩ := answer
    cases request with
    | call callee arguments =>
      exact linked_call (.cons (.hostCall id) trivial linked) (.inr rfl)
        (some callee) arguments later
    | resume target arguments =>
      exact linked_childResume (.cons (.hostResume id) trivial linked) rfl running executing target
        arguments later
    | callScript callee arguments =>
      obtain rfl := onMain rfl
      have busy : store.access Store.main ≠ .free := fun free => by cases free.symm.trans executing
      simp only [Machine.stepRequest, Store.beginScriptCall, Store.borrowing, if_pos busy]
      exact ⟨trivial, linked⟩
    | resumeHandle target arguments =>
      obtain rfl := onMain rfl
      exact linked_resume (.cons (.hostResume Store.main) trivial linked) (fun _ => .inr (.inl rfl))
        arguments later
    | enterGuard thread =>
      simp only [Machine.stepRequest]
      split <;> exact linked
    | _ => exact linked
  | settled outcome =>
    cases pending with
    | nil => exact linked
    | cons waiting pending =>
      rw [Machine.step, pending_stepSettled]
      exact linked.2

/-- At rest the script's own processor is taken from outside, so that its loan is the outermost
one. -/
theorem linked_borrowing (store : Store) (begin : Store → Turn) (world : W)
    (linked : ∀ taken, Linked (Machine.enter (begin taken) world [.release Store.main]).pending) :
    Linked (Machine.enter (Store.borrowing Store.main begin store) world []).pending := by
  by_cases free : store.access Store.main = .free
  · rw [enter_borrowing free]
    exact linked _
  · rw [Store.borrowing, if_pos free]
    trivial

/-- An operation begins with nobody waiting. -/
theorem linked_begin (operation : Operation) (store : Store) (world : W) :
    Linked (Machine.enter (operation.begin store) world []).pending := by
  have outside : Linked [.release Store.main] := ⟨trivial, trivial⟩
  cases operation with
  | call callee arguments =>
    exact linked_borrowing store _ world fun _ =>
      linked_call outside (.inl rfl) (some callee) arguments world
  | callTop arguments =>
    exact linked_borrowing store _ world fun _ =>
      linked_call outside (.inl rfl) none arguments world
  | push value => exact linked_borrowing store _ world fun _ => outside
  | resume target arguments =>
    exact linked_resume (show Linked [] from trivial) (fun _ => .inl rfl) arguments world
  | create function => trivial
  | edit change => trivial

end

/-- Everyone who waits has been put outside of the one before as long as no function of the host has
used a handle in a coroutine. Only the stages that the run has gone through are asked about. -/
theorem linked_of_contained {chunk : Chunk} {settings : Settings} {thread : ThreadId} {world : W}
    {trace : List (Stage W)} {machine : Machine W}
    (traces : Machine.Traces host (.new (.initial chunk settings thread) world) trace machine)
    (contained : ∀ stage ∈ trace, ¬ stage.before.Bypasses host) : Linked machine.pending := by
  induction traces with
  | stays => trivial
  | begins operation world traces rests inductionHypothesis =>
    exact linked_begin operation _ world
  | steps traces inductionHypothesis =>
    obtain ⟨first, others⟩ := List.forall_mem_cons.mp contained
    have sound := (reachable_sound (guardsAllowed host _) ⟨_, traces.leads⟩).1
    exact sound.linked_step first (inductionHypothesis others)

/-! ### What the chain tells -/

/-- The coroutine that a machine works on, in its code or in a host function. -/
def Focus.on? : Focus → Option CoroutineId
  | .code id _ | .host id _ => some id
  | .settled _ => none

/-- The status of every coroutine, told from its place in a chain. -/
structure Store.Ranks (store : Store) (chain : List CoroutineId) : Prop where
  main : store.status Store.main = .main
  executing : ∀ id, store.access id = .executing ↔ id ∈ chain
  running : ∀ id, store.status id = .running ↔ id ≠ Store.main ∧ chain.head? = some id
  normal : ∀ id, store.status id = .normal ↔ id ≠ Store.main ∧ id ∈ chain.tail
  resting : ∀ id, id ≠ Store.main → id ∉ chain →
    store.status id = .notStarted ∨ store.status id = .suspended ∨ store.status id = .dead

section

variable {machine : Machine W} {allowances : Allowances}

/-- A coroutine outside of the chain has nobody who waits on it, so it has not started, is suspended
or is dead. -/
theorem Machine.Sound.outside_rests (sound : machine.Sound allowances) (other : id ≠ Store.main)
    (outside : id ∉ chain machine.pending) :
    machine.store.status id = .notStarted ∨ machine.store.status id = .suspended ∨
      machine.store.status id = .dead := by
  have unmarked : marks id machine.pending = [] :=
    Classical.byContradiction fun marked => outside ((sound.mem_chain id).mpr marked)
  exact Agrees.resting ((sound.handle_of_marks unmarked).2 other)

/-- A coroutine that waits to be woken is normal. -/
theorem Machine.Sound.woken_normal (sound : machine.Sound allowances) (other : id ≠ Store.main)
    (waits : .wake id ∈ machine.pending) : machine.store.status id = .normal := by
  have marked : .wake ∈ marks id machine.pending :=
    List.mem_filterMap.mpr ⟨_, waits, Pending.mark_wake id⟩
  obtain ⟨rest, same⟩ := Shaped.wake (sound.coroutines id).handled.shaped marked
  exact (sound.handle_of_marks same).2 other

/-- The statuses follow from the chain where its first coroutine is driven and the others wait to be
woken. -/
theorem Machine.Sound.ranks (sound : machine.Sound allowances)
    (innermost : ∀ id, (chain machine.pending).head? = some id → Driven (marks id machine.pending))
    (others : ∀ id ∈ (chain machine.pending).tail, id ≠ Store.main → .wake id ∈ machine.pending) :
    machine.store.Ranks (chain machine.pending) := by
  have main : machine.store.status Store.main = .main :=
    (sound.coroutines Store.main).handled.main rfl
  have running : ∀ id, id ≠ Store.main → (chain machine.pending).head? = some id →
      machine.store.status id = .running :=
    fun id other first => (sound.running (innermost id first)).2.1 other
  have normal : ∀ id, id ≠ Store.main → id ∈ (chain machine.pending).tail →
      machine.store.status id = .normal :=
    fun id other later => sound.woken_normal other (others id later other)
  have places : ∀ id, id ≠ Store.main → (chain machine.pending).head? = some id ∨
      id ∈ (chain machine.pending).tail ∨ id ∉ chain machine.pending := by
    intro id _
    cases chain machine.pending with
    | nil => simp
    | cons first tail =>
      by_cases same : first = id
      · exact .inl (congrArg some same)
      · by_cases later : id ∈ tail
        · exact .inr (.inl later)
        · exact .inr (.inr (by simp [Ne.symm same, later]))
  have apart : ∀ {id status}, machine.store.status id = status → status ≠ .main →
      id ≠ Store.main := by
    rintro id status stands different rfl
    exact different (stands.symm.trans main)
  refine ⟨main, fun id => ?_,
    fun id => ⟨fun stands => ?_, fun ⟨other, first⟩ => running id other first⟩,
    fun id => ⟨fun stands => ?_, fun ⟨other, later⟩ => normal id other later⟩,
    fun id other outside => sound.outside_rests other outside⟩
  · exact (sound.coroutines id).handled.access.trans (sound.mem_chain id).symm
  · have other := apart stands (by decide)
    obtain first | later | outside := places id other
    · exact ⟨other, first⟩
    · cases stands.symm.trans (normal id other later)
    · have resting := sound.outside_rests other outside
      simp [stands] at resting
  · have other := apart stands (by decide)
    obtain first | later | outside := places id other
    · cases stands.symm.trans (running id other first)
    · exact ⟨other, later⟩
    · have resting := sound.outside_rests other outside
      simp [stands] at resting

/-- Where a machine works on a coroutine, that one carries what comes next. -/
theorem carrier_of_on {focus : Focus} (works : focus.on? = some id) (pending : List Pending) :
    focus.carrier? pending = some id := by
  cases focus with
  | code on pointer => exact works
  | host on event => exact works
  | settled outcome => cases works

/-- Behind a function of the host waits the code that has called it. -/
theorem continues_of_function {pending : List Pending} (fits : Fits (.function id) pending) :
    Continues id pending := by
  match pending, fits with
  | .hostFunction on resumeAt :: rest, fits => exact congrArg some fits.1

/-- Where a machine works on a coroutine, that one is the first of the chain, whether its code runs
or a function of the host does. -/
theorem Machine.Sound.ranks_working (sound : machine.Sound allowances)
    (linked : Linked machine.pending) (works : machine.focus.on? = some id) :
    (chain machine.pending).head? = some id ∧
      (chain machine.pending).IsChain (ResumedFrom machine.pending) ∧
      machine.store.Ranks (chain machine.pending) := by
  have closing : ∃ pending, pending <:+ machine.pending ∧ chain machine.pending = chain pending ∧
      Fits (.closing id) pending ∧ Linked pending := by
    obtain ⟨store, world, focus, pending⟩ := machine
    cases focus with
    | code on pointer =>
      obtain rfl := Option.some.inj works
      exact ⟨pending, List.suffix_refl _, rfl, sound.orderly.suits, linked⟩
    | host on event =>
      obtain rfl := Option.some.inj works
      have fits : Fits (.function on) pending := sound.orderly.suits
      obtain ⟨inner, suffix, _, same, closing⟩ :=
        closing_of_continues (continues_of_function fits) (other_of_function fits) linked
      exact ⟨inner, suffix, same, closing⟩
    | settled outcome => cases works
  obtain ⟨pending, suffix, same, closing, linked⟩ := closing
  obtain ⟨tail, chained, tells⟩ := chain_of_closing closing linked
  have first : chain machine.pending = id :: tail := same.trans chained
  refine ⟨congrArg List.head? first, first ▸ (tells.mono suffix).resumed,
    sound.ranks (fun other isFirst => ?_) fun other later apart => ?_⟩
  · rw [first] at isFirst
    obtain rfl := Option.some.inj isFirst
    exact driven_of_carrier sound.orderly.suits (carrier_of_on works _)
  · rw [first] at later
    exact suffix.mem (tells.woken other later apart)

/-- Where a machine rests nobody waits, so the chain is empty. -/
theorem Machine.Sound.ranks_resting (sound : machine.Sound allowances)
    (rests : machine.atRest = true) :
    machine.store.Ranks [] := by
  obtain ⟨store, world, focus, pending⟩ := machine
  obtain ⟨outcome, rfl, rfl⟩ := atRest_iff.mp rests
  exact sound.ranks (fun _ first => by cases first) fun _ later => by cases later

/-! ### Resumes and calls that are turned away -/

/-- Whoever is in the chain is neither dead nor can be resumed, because of the status that its place
in the chain gives it. -/
theorem Store.Ranks.unready {store : Store} {chain : List CoroutineId} (ranks : store.Ranks chain)
    {target : CoroutineId} (member : target ∈ chain) :
    (store.status target).isResumable = false ∧ store.status target ≠ .dead := by
  have status : store.status target = .main ∨ store.status target = .running ∨
      store.status target = .normal := by
    by_cases isMain : target = Store.main
    · exact .inl (isMain ▸ ranks.main)
    · cases chain with
      | nil => cases member
      | cons first tail =>
        obtain rfl | later := List.mem_cons.mp member
        · exact .inr (.inl ((ranks.running target).mpr ⟨isMain, rfl⟩))
        · exact .inr (.inr ((ranks.normal target).mpr ⟨isMain, later⟩))
  obtain status | status | status := status <;> rw [status] <;> decide

/-- Whether a resume is turned away depends on the handle of its target, on the guard and on the
thread. -/
theorem Store.Refuses.congr {store other : Store} {target : CoroutineId} {error : ScriptError}
    (status : other.status target = store.status target)
    (access : other.access target = store.access target)
    (guard : (other.processor target).guard = (store.processor target).guard)
    (thread : other.thread = store.thread) (refuses : store.Refuses target error) :
    other.Refuses target error := by
  cases refuses with
  | dead dead => exact .dead (status.trans dead)
  | unready unready alive =>
    rw [← status] at unready alive ⊢
    exact .unready unready alive
  | used resumable used =>
    rw [← status] at resumable
    rw [← access] at used
    exact .used resumable used
  | foreign resumable free refused =>
    rw [← status] at resumable
    rw [← access] at free
    rw [passGuard, ← guard, ← thread] at refused
    exact .foreign resumable free refused

/-- A resume from another coroutine that is turned away leaves no trace, although that coroutine has
been normal for a moment. -/
theorem returns_childResume_refused {store : Store} {target : CoroutineId} {error : ScriptError}
    (refuses : store.Refuses target error) (id : CoroutineId) (arguments : List Value) (world : W)
    (outer : List Pending) :
    Machine.Returns host outer
      (Machine.enter (store.beginChildResume id target arguments) world outer)
      store world (.error error) := by
  obtain ⟨handed, waiting, hands⟩ := store.hands id target
  rw [hands.enter]
  cases hands with
  | stays =>
    rw [List.nil_append, enter_beginResume_refused refuses]
    exact .back _ _ _
  | waits running different =>
    have same : (store.setStatus id .normal).coroutine target = store.coroutine target :=
      Store.coroutine_modifyCoroutine_other different.symm _
    have still : (store.setStatus id .normal).Refuses target error :=
      refuses.congr (congrArg Coroutine.status same) (congrArg Coroutine.access same)
        (congrArg (fun coroutine => coroutine.processor.guard) same) rfl
    rw [enter_beginResume_refused still]
    refine .onward (fun _ _ => List.cons_ne_self _ _) ?_
    have woken : (store.setStatus id .normal).setStatus id .running = store := by
      rw [Store.setStatus, Store.setStatus, Store.modifyCoroutine_twice]
      refine Store.modifyCoroutine_same ?_
      rw [← running]
      rfl
    have steps : Machine.step host ⟨store.setStatus id .normal, world, .settled (.error error),
        .wake id :: outer⟩ = ⟨store, world, .settled (.error error), outer⟩ := by
      rw [Machine.step, Machine.stepSettled, woken]
    rw [List.singleton_append, steps]
    exact .back _ _ _

end

/-- What can be told where a machine works on a coroutine: the chain from that coroutine outwards,
the statuses of all coroutines, and that nobody in the chain can be entered once more. -/
structure Machine.Chained (host : Host W) (machine : Machine W) (id : CoroutineId) : Prop where
  innermost : (chain machine.pending).head? = some id
  nodup : (chain machine.pending).Nodup
  resumed : (chain machine.pending).IsChain (ResumedFrom machine.pending)
  ranks : machine.store.Ranks (chain machine.pending)
  /-- A resume from any coroutine is turned away and leaves no trace. -/
  refused : ∀ target ∈ chain machine.pending, ∀ resumer arguments world outer,
    Machine.Returns host outer
      (Machine.enter (machine.store.beginChildResume resumer target arguments) world outer)
      machine.store world (.error (.coroutineNotSuspended (machine.store.status target)))
  /-- So is a resume through the handle. -/
  handles : ∀ target ∈ chain machine.pending, ∀ arguments (world : W) outer,
    Machine.enter (machine.store.beginResume target arguments) world outer =
      ⟨machine.store, world,
        .settled (.error (.coroutineNotSuspended (machine.store.status target))), outer⟩
  /-- A resume by an instruction has taken its operands from the stack and does nothing else. -/
  instructions : ∀ pointer instruction target arguments resumeAt after,
    machine.focus = .code id pointer → machine.store.chunk.instruction? pointer = some instruction →
    Store.execute id instruction (pointer + 1) machine.store =
      (.ok (.resume target arguments resumeAt), after) → target ∈ chain machine.pending →
    Machine.Returns host (.resumeInstruction id resumeAt :: machine.pending)
      (machine.step host) after machine.world
      (.error (.coroutineNotSuspended (machine.store.status target)))
  /-- A call through the script is turned away while the script's own processor is in the chain. -/
  calls : Store.main ∈ chain machine.pending → ∀ callee arguments (world : W) outer,
    Machine.enter (machine.store.beginScriptCall callee arguments) world outer =
      ⟨machine.store, world, .settled (.error .processorBusy), outer⟩

/-- The processors that run have been entered from one another, in a chain that ends with the one
that the machine works on. This one is running and the others are normal, but for the script's own
one; no other coroutine is either, and nobody is between two operations. It is enough that no
function of the host has called or resumed through a handle at the stages of this run while it ran
in a coroutine; on the script's own processor a handle does no harm. -/
theorem chain_tells_statuses {chunk : Chunk} {settings : Settings} {thread : ThreadId} {world : W}
    {trace : List (Stage W)} {machine : Machine W}
    (traces : Machine.Traces host (.new (.initial chunk settings thread) world) trace machine)
    (contained : ∀ stage ∈ trace, ¬ stage.before.Bypasses host) :
    (machine.atRest = true → machine.store.Ranks []) ∧
      ∀ id, machine.focus.on? = some id → machine.Chained host id := by
  have sound := (reachable_sound (guardsAllowed host _) ⟨_, traces.leads⟩).1
  refine ⟨sound.ranks_resting, fun id works => ?_⟩
  obtain ⟨innermost, resumed, ranks⟩ :=
    sound.ranks_working (linked_of_contained traces contained) works
  refine ⟨innermost, sound.chain_nodup, resumed, ranks, ?_, ?_, ?_, ?_⟩
  · intro target member resumer arguments world outer
    obtain ⟨unready, alive⟩ := ranks.unready member
    exact returns_childResume_refused (.unready unready alive) resumer arguments world outer
  · intro target member arguments world outer
    obtain ⟨unready, alive⟩ := ranks.unready member
    exact enter_beginResume_refused (.unready unready alive) arguments world outer
  · intro pointer instruction target arguments resumeAt after coding found executes member
    obtain ⟨store, world, focus, pending⟩ := machine
    obtain rfl : focus = .code id pointer := coding
    have known : store.Has id := sound.known rfl
    have touches := (Store.execute_effects instruction (pointer + 1) known).of_ok executes
    have knownTarget : store.Has target :=
      sound.orderly.known target ((sound.mem_chain target).mp member)
    have same : after.status target = store.status target :=
      steady_touched touches target knownTarget
    obtain ⟨unready, alive⟩ := ranks.unready member
    rw [← same] at unready alive ⊢
    simp only [Machine.step, Machine.stepCode, found, executes]
    exact returns_childResume_refused (.unready unready alive) id arguments world _
  · intro member callee arguments world outer
    have busy : machine.store.access Store.main ≠ .free := by
      rw [(ranks.executing Store.main).mpr member]
      decide
    rw [Store.beginScriptCall, Store.borrowing, if_pos busy]
    rfl

/-! ### A function of the host in a coroutine -/

/-- A main body that resumes a coroutine, which calls a function of the host. -/
def nestingChunk : Chunk where
  functions := #[⟨"main", 0, 0, false⟩, ⟨"calls", 4, 0, false⟩]
  code :=
    #[.makeClosure 1 [], .createCoroutine, .resumeCoroutine 0, .ret 1, .loadGlobal "back",
      .call 0, .ret 1]

/-- The script where the function of the host begins. -/
def nestedMachine : Machine Unit :=
  .run .silent 5 (.enter ((Operation.call .mainBody []).begin
    ((Store.sample nestingChunk).edit callbackEdit)) () [])

/-- The small script is one that a run leads to. -/
theorem reachable_nestedMachine : Machine.Reachable Host.silent (.sample nestingChunk)
    [.call .mainBody [], .edit callbackEdit] nestedMachine :=
  ⟨(),
    (Machine.Leads.operates (.call .mainBody []) () (.operates (.edit callbackEdit) () .stays rfl)
    rfl).run 5⟩

/-- Functions that return nil at once use no handle. -/
theorem silent_contained (machine : Machine Unit) : ¬ machine.Bypasses Host.silent := by
  rintro ⟨id, event, _, _, uses⟩
  cases uses

/-- The function of the host finds the coroutine and the script's own processor in the chain. -/
theorem nested_chain :
    chain nestedMachine.pending = [1, Store.main] ∧ nestedMachine.Chained .silent 1 := by
  have chained : chain nestedMachine.pending = [1, Store.main] := by
    decide +kernel
  have works : nestedMachine.focus.on? = some 1 := by
    decide +kernel
  obtain ⟨world, leads⟩ := reachable_nestedMachine
  obtain ⟨trace, traces, _⟩ := Machine.Traces.exists_of_leads leads
  have contained : ∀ stage ∈ trace, ¬ stage.before.Bypasses Host.silent :=
    fun stage _ => silent_contained stage.before
  exact ⟨chained, (chain_tells_statuses traces contained).2 1 works⟩

end CoroutineVM
