import CoroutineVM.Proofs.Processor.Frames
import CoroutineVM.Proofs.Store.Operators
import CoroutineVM.Proofs.Store.View

/-!
# What an instruction can do

Almost every instruction works inside the window of the top frame and goes on in the same frame. A
call of a closure opens a frame on its callee, and a return drops one. `Flow.Effect` states for each
way an instruction can end what it has done to its processor; whatever else it does, it leaves every
other coroutine alone, except that it may create one.
-/

namespace CoroutineVM.Store

open Processor

variable {α β : Type} {id : CoroutineId}

/-! ### Instructions that stay in their frame -/

/-- An attempt that works inside the window of one processor and comes to a result as stated. -/
def Inside (id : CoroutineId) (shape : α → Prop) (attempt : Attempt Store α) : Prop :=
  ∀ before : Store, before.Has id → attempt.Ends before
    (fun result after => shape result ∧ Touches id Keeps before after)
    (fun error after => Touches id Keeps before after ∧ error.isOwn = true)

/-- Nothing has been done to the coroutine, so that its window is as it was. -/
theorem touches_refl (store : Store) : Touches id Keeps store store :=
  touches_same (Lasts.refl store) rfl rfl (Keeps.refl _)

/-- Two steps in the window of one coroutine are one; the second one finds the base where it was. -/
theorem touches_keeps_trans {first second third : Store} (left : Touches id Keeps first second)
    (right : Touches id Keeps second third) : Touches id Keeps first third := by
  refine Touches.trans ?_ left right
  intro a b c before after
  exact before.trans after

/-- Coming to a result without doing anything. -/
theorem inside_pure {shape : α → Prop} {result : α} (shaped : shape result) :
    Inside id shape (pure result) := fun before _ =>
  Attempt.ends_pure ⟨shaped, touches_refl before⟩

/-- An instruction fails with an error of its own: those of guards and dead coroutines are raised by
resumes and calls, not by instructions. -/
theorem inside_fail {shape : α → Prop} {error : ScriptError} (own : error.isOwn = true) :
    Inside id shape (Attempt.fail error) := fun before _ =>
  Attempt.ends_fail ⟨touches_refl before, own⟩

/-- A look at the store. -/
theorem inside_read (look : Store → α) : Inside id (fun _ => True) (Attempt.read look) :=
  fun before _ => Attempt.ends_read ⟨trivial, touches_refl before⟩

/-- A look that may fail. -/
theorem inside_check {look : Store → Except ScriptError α}
    (own : ∀ store error, look store = .error error → error.isOwn = true) :
    Inside id (fun _ => True) (Attempt.check look) := fun before _ =>
  Attempt.ends_check (fun _ _ => ⟨trivial, touches_refl before⟩)
    (fun error missed => ⟨touches_refl before, own before error missed⟩)

/-- The result of the first attempt has a shape that the second one may rely on, and the coroutine
is still there for it. -/
theorem inside_bind {shape : α → Prop} {middle : β → Prop} {first : Attempt Store β}
    {second : β → Attempt Store α} (left : Inside id middle first)
    (right : ∀ result, middle result → Inside id shape (second result)) :
    Inside id shape (first >>= second) := fun before known =>
  Attempt.ends_bind (left before known) fun result next between =>
    (right result between.1 next (between.2.has known)).mono
      (fun _ _ reached => ⟨reached.1, touches_keeps_trans between.2 reached.2⟩)
      (fun _ _ failed => ⟨touches_keeps_trans between.2 failed.1, failed.2⟩)

/-- Work in the window of a processor is inside, seen from the store. -/
theorem inside_onProcessor {attempt : Attempt Processor α} (window : InWindow attempt) :
    Inside id (fun _ => True) (onProcessor id attempt) := fun before known =>
  (onProcessor_ends known (fun _ => Keeps) Keeps (window (before.processor id))).mono
    (fun _ _ touches => ⟨trivial, touches⟩) (fun _ _ failed => failed)

/-- Whatever does not concern the coroutines is inside: tables, cells and the names of scopes may
change. -/
theorem inside_apart {attempt : Attempt Store α}
    (apart : ∀ before, ∃ result after, attempt before = (.ok result, after) ∧
      Lasts before after ∧ after.coroutines = before.coroutines ∧
        after.counters = before.counters) :
    Inside id (fun _ => True) attempt := by
  intro before _
  obtain ⟨result, after, reached, lasts, same, counters⟩ := apart before
  exact Attempt.ends_ok reached ⟨trivial, touches_same lasts same counters (Keeps.refl _)⟩

/-- A change of such parts is inside. -/
theorem inside_modify {change : Store → Store}
    (apart : ∀ before, Lasts before (change before) ∧
      (change before).coroutines = before.coroutines ∧ (change before).counters = before.counters) :
    Inside id (fun _ => True) (Attempt.modify change) :=
  inside_apart fun before => ⟨(), change before, rfl, apart before⟩

/-- A cell is made in the store, beside all coroutines. -/
theorem inside_createCell (value : Value) : Inside id (fun _ => True) (createCell value) :=
  inside_apart fun _ => ⟨_, _, rfl, ⟨rfl, rfl, rfl, Nat.le_refl _⟩, rfl, rfl⟩

/-- So is the scope of a closure. -/
theorem inside_createClosure (function : Nat) (cells : List CellId) :
    Inside id (fun _ => True) (createClosure function cells) :=
  inside_apart fun _ => ⟨_, _, rfl, ⟨rfl, rfl, rfl, Nat.le_refl _⟩, rfl, rfl⟩

/-- A coroutine that is added takes a place of its own, and the others read as before. -/
theorem coroutine_push_other {store : Store} {coroutine : Coroutine} {other : CoroutineId}
    (different : other ≠ store.coroutines.size) :
    Store.coroutine { store with coroutines := store.coroutines.push coroutine } other =
      store.coroutine other := by
  simp [Store.coroutine, Array.getElem?_push, different]

/-- A new coroutine takes the next name, and nobody else notices. -/
theorem touches_spawn {store : Store} (known : store.Has id) {coroutine : Coroutine}
    (newborn : Newborn store.settings coroutine) :
    Touches id Keeps store { store with coroutines := store.coroutines.push coroutine } := by
  have grown : store.coroutines.size ≤ (store.coroutines.push coroutine).size := by simp
  refine ⟨⟨rfl, rfl, rfl, grown⟩, rfl, ?_, store.processor id, ?_, Keeps.refl _⟩
  · intro other _
    by_cases created : other = store.coroutines.size
    · subst created
      refine .inr ⟨Nat.lt_irrefl _, ?_, ?_⟩
      · simp [Has]
      · simpa [Store.coroutine] using newborn
    · exact .inl (coroutine_push_other created)
  · exact coroutine_push_other (Nat.ne_of_lt known)

/-- A coroutine is created of a function that the chunk defines, and of nothing else. When it is
refused nothing has been created. -/
theorem spawn_store (parent : CoroutineId) (function : Value) (store : Store) :
    (spawn parent function store).2 = store ∨
      ∃ coroutine, Newborn store.settings coroutine ∧
        (spawn parent function store).2 =
          { store with coroutines := store.coroutines.push coroutine } := by
  cases function
  case closure closure =>
    cases found : store.chunk.entryPoint closure with
    | ok entryPoint =>
      refine .inr ⟨_, ⟨parent, closure, rfl⟩, ?_⟩
      simp [spawn, bind, Attempt.andThen, Attempt.check, found]
    | error error =>
      left
      simp [spawn, bind, Attempt.andThen, Attempt.check, found]
  all_goals exact .inl rfl

/-- The coroutine that creates another one keeps its processor as it is. -/
theorem inside_spawn (function : Value) : Inside id (fun _ => True) (spawn id function) := by
  unfold spawn
  split
  next closure =>
    refine inside_bind (inside_check fun store error missed => entryPoint_own missed) ?_
    intro _ _ before known
    exact Attempt.ends_ok rfl ⟨trivial, touches_spawn known ⟨_, _, rfl⟩⟩
  next => exact inside_fail rfl

/-- By induction on the items, as for the captures of a closure. -/
theorem inside_mapEach {attempt : β → Attempt Store α}
    (each : ∀ item, Inside id (fun _ => True) (attempt item)) (items : List β) :
    Inside id (fun _ => True) (Attempt.mapEach attempt items) := by
  induction items with
  | nil => exact inside_pure trivial
  | cons item rest inductionHypothesis =>
    exact inside_bind (each item) fun _ _ => inside_bind inductionHypothesis fun _ _ =>
      inside_pure trivial

/-! ### The effect on the processor -/

/-- What an instruction has done to its processor when it ends so. -/
inductive Effect (chunk : Chunk) : Flow → Processor → Processor → Prop where
  /-- It has worked in the window. -/
  | stays {pointer : Nat} {before after : Processor} (keeps : Keeps before after) :
      Effect chunk (.goto pointer) before after
  /-- It has put a callee and arguments on what it left in the window, and opened a frame on
  them. -/
  | opens {resumeAt : Nat} {callee : Value} {arguments : List Value} {opened : Frame}
      {before middle after : Processor} (keeps : Keeps before middle)
      (opens :
        Opened chunk middle.values.toList callee (Value.spread arguments) opened middle after)
      (exact : callee = .closure ⟨opened.function, opened.scope⟩)
      (returns : opened.returnPoint = .instruction resumeAt) :
      Effect chunk (.goto opened.entryPoint) before after
  /-- It has dropped the top frame and left a result to the code below. -/
  | drops {pointer : Nat} {value : Value} {frame : Frame} {count : Nat}
      {before middle after : Processor} (keeps : Keeps before middle)
      (framed : Framed middle frame count) (dropped : Dropped frame count [value] middle after)
      (returns : frame.returnPoint = .instruction pointer) :
      Effect chunk (.goto pointer) before after
  /-- It has dropped the frame that the host entered. -/
  | leaves {value : Value} {frame : Frame} {count : Nat} {before middle after : Processor}
      (keeps : Keeps before middle) (framed : Framed middle frame count)
      (dropped : Dropped frame count [] middle after) (returns : frame.returnPoint = .host) :
      Effect chunk (.returned value) before after
  | yields {value : Value} {resumeAt : Nat} {before after : Processor} (keeps : Keeps before after)
      (allowed : before.mayYield = true) :
      Effect chunk (.yielded value resumeAt) before after
  | callsHost {function : HostFunction} {arguments : List Value} {resumeAt : Nat}
      {before after : Processor} (keeps : Keeps before after) :
      Effect chunk (.callHost function arguments resumeAt) before after
  | resumes {target : CoroutineId} {arguments : List Value} {resumeAt : Nat}
      {before after : Processor} (keeps : Keeps before after) :
      Effect chunk (.resume target arguments resumeAt) before after

/-- An instruction that asks for a resume has only taken the operands from its window. -/
theorem Effect.keepsOfResume {chunk : Chunk} {target : CoroutineId} {arguments : List Value}
    {resumeAt : Nat} {before after : Processor}
    (effect : Effect chunk (.resume target arguments resumeAt) before after) :
    Keeps before after := by
  cases effect with
  | resumes keeps => exact keeps

/-- What an instruction has done to its processor when it fails. -/
inductive Falters (before after : Processor) : Prop where
  | keeps (keeps : Keeps before after) : Falters before after
  /-- A return has lost its frame. -/
  | loses {middle : Processor} (keeps : Keeps before middle) (lost : Lost middle after) :
      Falters before after

/-- The ends of an instruction that leave its frame where it is. -/
def Remains : Flow → Prop
  | .goto _ | .callHost _ _ _ | .resume _ _ _ => True
  | .returned _ | .yielded _ _ => False

/-- How an instruction ends that is neither a call nor a return nor a yield: it goes on behind
itself or where it jumps to, or it goes on behind itself when the coroutine that it resumes has
stopped. -/
inductive Onward (instruction : Instruction) (next : Nat) : Flow → Prop where
  | goes : Onward instruction next (.goto next)
  | jumps {target : Nat} (jumps : instruction.jumpTarget? = some target) :
      Onward instruction next (.goto target)
  | resumes {count : Nat} {target : CoroutineId} {arguments : List Value}
      (resumes : instruction = .resumeCoroutine count) :
      Onward instruction next (.resume target arguments next)

/-- An instruction that goes on has neither returned nor yielded. -/
theorem Onward.remains {instruction : Instruction} {next : Nat} {flow : Flow}
    (onward : Onward instruction next flow) : Remains flow := by
  cases onward <;> trivial

/-- When the frame stays, work in the window is the whole effect, however the instruction ends. -/
theorem Remains.effect {chunk : Chunk} {flow : Flow} (remains : Remains flow)
    {before after : Processor} (keeps : Keeps before after) : Effect chunk flow before after := by
  cases flow with
  | goto pointer => exact .stays keeps
  | callHost function arguments resumeAt => exact .callsHost keeps
  | resume target arguments resumeAt => exact .resumes keeps
  | returned value => exact remains.elim
  | yielded value resumeAt => exact remains.elim

/-- What an instruction comes to that works on the processor of `id`. -/
def Effects (id : CoroutineId) (attempt : Attempt Store Flow) (before : Store) : Prop :=
  attempt.Ends before
    (fun flow after => Touches id (Effect before.chunk flow) before after)
    (fun error after => Touches id Falters before after ∧ error.isOwn = true)

/-- A failure inside the window is the ordinary one. -/
theorem touches_falters {before after : Store} (touches : Touches id Keeps before after) :
    Touches id Falters before after := touches.mono fun _ _ keeps => .keeps keeps

/-- What holds of the instructions that stay in their frame, in the form that fits all
instructions. -/
theorem Inside.effects {attempt : Attempt Store Flow} {instruction : Instruction} {next : Nat}
    (inside : Inside id (Onward instruction next) attempt) {before : Store}
    (known : before.Has id) :
    Effects id attempt before :=
  (inside before known).mono
    (fun _ _ reached => reached.2.mono fun _ _ keeps => reached.1.remains.effect keeps)
    (fun _ _ failed => ⟨touches_falters failed.1, failed.2⟩)

/-- How a call instruction with so many arguments ends well: it has opened a frame in the place of
the callee and the arguments, or it leaves the call to the host. -/
inductive Opens (chunk : Chunk) (count next : Nat) : Flow → Processor → Processor → Prop where
  | frame {closure : Closure} {arguments : List Value} {opened : Frame}
      {before middle after : Processor} (taken : Taken (count + 1) before middle)
      (opens :
        Opened chunk middle.values.toList (.closure closure) (Value.spread arguments) opened middle
        after)
      (returns : opened.returnPoint = .instruction next) :
      Opens chunk count next (.goto opened.entryPoint) before after
  | host {function : HostFunction} {arguments : List Value} {before after : Processor}
      (taken : Taken (count + 1) before after) :
      Opens chunk count next (.callHost function arguments next) before after

/-- A call that opens a frame or leaves the call to the host has an effect that the list above
knows. -/
theorem Opens.effect {chunk : Chunk} {count next : Nat} {flow : Flow} {before after : Processor}
    (opens : Opens chunk count next flow before after) : Effect chunk flow before after := by
  cases opens with
  | frame taken opens returns => exact .opens taken.keeps opens opens.called returns
  | host taken => exact .callsHost taken.keeps

/-- A closure gets a frame over what is left in the window: the callee that has been taken off is
put back, and its arguments follow with their number. -/
theorem openInstruction_opens {count next : Nat} {closure : Closure} {entryPoint : Nat}
    (arguments : List Value) {start before : Store} (known : before.Has id)
    (taken : Touches id (Taken (count + 1)) start before)
    (found : before.chunk.entryPoint closure = .ok entryPoint) :
    (do
      onProcessor id do
        push (.closure closure)
        pushArguments arguments
        pushFrame closure entryPoint (.instruction next)
      return .goto entryPoint : Attempt Store Flow).Ends before
      (fun flow after => Touches id (Opens start.chunk count next flow) start after)
      (fun error after => Touches id Keeps start after ∧ error.isOwn = true) := by
  refine Attempt.ends_bind ((onProcessor_ends known (fun _ middle after => ∃ frame,
    Opened before.chunk middle.values.toList (.closure closure)
      (Value.spread arguments) frame middle
      after ∧ frame.returnPoint = .instruction next ∧ frame.entryPoint = entryPoint) Keeps ?_).mono
    (fun _ _ reached => reached) ?_) ?_
  · exact (openClosure_ends (.instruction next) arguments _ found).mono (fun _ _ opened => opened)
      fun _ _ failed => ⟨failed.1.keeps, failed.2⟩
  · intro error after failed
    exact ⟨Touches.trans (fun _ _ _ left right => left.keeps.trans right) taken failed.1, failed.2⟩
  · intro _ after opened
    rw [taken.chunk] at opened
    refine Attempt.ends_pure (Touches.trans ?_ taken opened)
    rintro _ middle _ left ⟨frame, opens, returns, rfl⟩
    exact .frame left opens returns

/-- Values are taken from the top, or there are too few and nothing changes. -/
theorem onProcessor_taken {attempt : Attempt Processor α} {count : Nat}
    (takes : ∀ processor, attempt.Ends processor (fun _ after => Taken count processor after)
      fun error after => after = processor ∧ ∃ slot, error = .invalidStackAccess slot)
    {store : Store} (known : store.Has id) :
    (onProcessor id attempt).Ends store (fun _ after => Touches id (Taken count) store after)
      (fun error after => Touches id Keeps store after ∧ error.isOwn = true) := by
  refine onProcessor_ends known (fun _ => Taken count) Keeps
    ((takes _).mono (fun _ _ taken => taken) ?_)
  rintro _ _ ⟨rfl, slot, rfl⟩
  exact ⟨Keeps.refl _, rfl⟩

/-- A call instruction takes its arguments and its callee. A closure gets a frame in their place,
and a function of the host is left to be called; any other callee is refused with both taken. -/
theorem call_opens (count next : Nat) {before : Store} (known : before.Has id) :
    (call id count next).Ends before
      (fun flow after => Touches id (Opens before.chunk count next flow) before after)
      (fun error after => Touches id Keeps before after ∧ error.isOwn = true) := by
  refine Attempt.ends_bind (onProcessor_taken (popMany_ends count) known) ?_
  intro popped middle arguments
  have stillKnown := arguments.has known
  refine Attempt.ends_bind
    ((onProcessor_taken pop_ends stillKnown).mono (fun _ _ reached => reached) ?_) ?_
  · intro error after failed
    exact ⟨Touches.trans (fun _ _ _ left right => left.keeps.trans right) arguments failed.1,
      failed.2⟩
  intro callee below last
  have taken : Touches id (Taken (count + 1)) before below :=
    Touches.trans (fun _ _ _ left right => left.trans right) arguments last
  have kept : Touches id Keeps before below := taken.mono fun _ _ taken => taken.keeps
  split
  next closure _ =>
    refine Attempt.ends_bind_check ?_ ?_
    · intro entryPoint found
      exact openInstruction_opens _ (taken.has known) taken found
    · intro error missed
      exact ⟨kept, entryPoint_own missed⟩
  next function _ => exact Attempt.ends_pure (taken.mono fun _ _ taken => .host taken)
  next => exact Attempt.ends_fail ⟨kept, rfl⟩

/-- A call of a closure opens a frame over what is left below its callee. -/
theorem call_effects (arguments next : Nat) {before : Store} (known : before.Has id) :
    Effects id (call id arguments next) before :=
  (call_opens arguments next known).mono
    (fun _ _ reached => reached.mono fun _ _ opens => opens.effect)
    (fun _ _ failed => ⟨touches_falters failed.1, failed.2⟩)

/-- How a return instruction ends: there is no result, the frame does not find its arguments, or it
is dropped and its result goes to the host or to the code below. -/
inductive Returns (results : Nat) : Except ScriptError Flow → Processor → Processor → Prop where
  | short {error : ScriptError} {before after : Processor}
      (popped : popResult results before = (.error error, after)) :
      Returns results (.error error) before after
  | strays {value : Value} {error : ScriptError} {before middle after : Processor}
      (popped : popResult results before = (.ok value, middle)) (lost : Lost middle after)
      (own : error.isOwn = true) :
      Returns results (.error error) before after
  | host {value : Value} {frame : Frame} {count : Nat} {before middle after : Processor}
      (popped : popResult results before = (.ok value, middle)) (framed : Framed middle frame count)
      (dropped : Dropped frame count [] middle after) (returns : frame.returnPoint = .host) :
      Returns results (.ok (.returned value)) before after
  | code {pointer : Nat} {value : Value} {frame : Frame} {count : Nat}
      {before middle after : Processor} (popped : popResult results before = (.ok value, middle))
      (framed : Framed middle frame count) (dropped : Dropped frame count [value] middle after)
      (returns : frame.returnPoint = .instruction pointer) :
      Returns results (.ok (.goto pointer)) before after

/-- A return is followed through its three parts: the result, the frame, and the push of the result
for the code below. Each of them may be where it ends. -/
theorem leaveFrame_returns (results : Nat) {before : Store} (known : before.Has id) :
    (leaveFrame id results).Ends before
      (fun flow after => Touches id (Returns results (.ok flow)) before after)
      (fun error after => Touches id (Returns results (.error error)) before after) := by
  refine onProcessor_touches known (fun flow => Returns results (.ok flow))
    (fun error => Returns results (.error error)) ?_
  refine Attempt.ends_bind (Attempt.ends_run.mono (fun _ _ popped => popped)
    fun _ _ failed => .short failed) ?_
  intro value middle popped
  refine Attempt.ends_bind ((popFrame_ends middle).mono (fun _ _ reached => reached)
    fun _ _ failed => .strays popped failed.1 failed.2) ?_
  rintro frame below ⟨count, framed, dropped⟩
  split
  next returns => exact Attempt.ends_pure (.host popped framed dropped returns)
  next pointer returns =>
    refine Attempt.ends_bind ((push_dropped framed dropped value).mono (fun _ _ reached => reached)
      fun _ _ failed => .strays popped failed.1 failed.2) ?_
    intro _ after finished
    exact Attempt.ends_pure (.code popped framed finished returns)

/-- A return that succeeds has left its frame, for the host or for the code below. -/
theorem Returns.effect {results : Nat} {chunk : Chunk} {flow : Flow} {before after : Processor}
    (returns : Returns results (.ok flow) before after) : Effect chunk flow before after := by
  cases returns with
  | host popped framed dropped returns =>
    exact .leaves ((inWindow_popResult results before).of_ok popped) framed dropped returns
  | code popped framed dropped returns =>
    exact .drops ((inWindow_popResult results before).of_ok popped) framed dropped returns

/-- A return that fails has worked in the window only or lost its frame, and its error is its
own. -/
theorem Returns.falters {results : Nat} {error : ScriptError} {before after : Processor}
    (returns : Returns results (.error error) before after) :
    Falters before after ∧ error.isOwn = true := by
  cases returns with
  | short popped =>
    obtain ⟨keeps, own⟩ := (inWindow_popResult results before).of_error popped
    exact ⟨.keeps keeps, own⟩
  | strays popped lost own =>
    exact ⟨.loses ((inWindow_popResult results before).of_ok popped) lost, own⟩

/-- A return drops its frame and hands on its value, unless the frame has not found its
arguments. -/
theorem leaveFrame_effects (results : Nat) {before : Store} (known : before.Has id) :
    Effects id (leaveFrame id results) before := by
  refine (leaveFrame_returns results known).mono
    (fun _ _ reached => reached.mono fun _ _ returns => returns.effect) fun error after failed => ?_
  obtain ⟨_, _, returns⟩ := failed.own
  exact ⟨failed.mono fun _ _ returns => returns.falters.1, returns.falters.2⟩

/-- A yield hands on values only where it is allowed, and stays in its frame. Where it is not
allowed it fails before it has taken anything. -/
theorem yield_effects (results next : Nat) {before : Store} (known : before.Has id) :
    Effects id (execute id (.yield results) next) before := by
  refine Attempt.ends_bind_read ?_
  split
  next allowed =>
    refine Attempt.ends_bind (onProcessor_ends known
      (fun value => Effect before.chunk (.yielded value next)) Falters ?_) ?_
    · exact (inWindow_popResult results _).mono (fun _ _ keeps => .yields keeps allowed)
        (fun _ _ failed => ⟨.keeps failed.1, failed.2⟩)
    · intro value after touches
      exact Attempt.ends_pure touches
  next => exact Attempt.ends_fail ⟨touches_falters (touches_refl before), rfl⟩

/-- A yield succeeds only where it is permitted and takes its values from the top. It is refused
only where it is not permitted; another error says that values are missing. -/
theorem execute_yield_ends (store : Store) (id : CoroutineId) (count next : Nat) :
    (execute id (.yield count) next).Ends store
      (fun flow after => (store.processor id).mayYield = true ∧
        (∃ value, flow = .yielded value next) ∧
        after = store.modifyProcessor id fun _ =>
          { store.processor id with
            values :=
              (store.processor id).values.truncate ((store.processor id).values.height - count) })
      fun error _ => error = .yieldAcrossHostCall ↔ (store.processor id).mayYield = false := by
  refine Attempt.ends_bind_read ?_
  split
  next allowed =>
    have stops : (onProcessor id (popResult count)).Ends store
        (fun _ after => after = store.modifyProcessor id fun _ => { store.processor id with
          values :=
            (store.processor id).values.truncate ((store.processor id).values.height - count) })
        fun error _ => error = .yieldAcrossHostCall ↔ (store.processor id).mayYield = false := by
      rw [Attempt.Ends, onProcessor_eq]
      have pops := popResult_ends count (store.processor id)
      rw [Attempt.Ends] at pops
      split at pops
      next reached => simp [reached, pops]
      next reached =>
        obtain ⟨_, slot, rfl⟩ := pops
        simp [reached, allowed]
    exact Attempt.ends_bind stops fun value _ stopped =>
      Attempt.ends_pure ⟨allowed, ⟨value, rfl⟩, stopped⟩
  next refused => exact Attempt.ends_fail (by simpa using refused)

/-- Work in the window after which the code goes on. -/
theorem inside_goto {attempt : Attempt Processor α} {instruction : Instruction} {next : Nat}
    (window : InWindow attempt) :
    Inside id (Onward instruction next) (do let _ ← onProcessor id attempt; return .goto next) :=
  inside_bind (inside_onProcessor window) fun _ _ => inside_pure .goes

/-- A captured local is copied to a cell of its own, and a captured variable is found through the
scope of the top frame. -/
theorem inside_capture (capture : Capture) :
    Inside id (fun _ => True) (Store.capture id capture) := by
  cases capture with
  | copyLocal index =>
    exact inside_bind (inside_onProcessor (inWindow_loadLocal index)) fun _ _ =>
      inside_createCell _
  | shareUpvalue index => exact inside_onProcessor (inWindow_upvalueCell index)

/-- The operand that is to be a coroutine is popped and looked at. -/
theorem inside_popCoroutine (action : String) :
    Inside id (fun _ => True) (popCoroutine id action) := by
  refine inside_bind (inside_onProcessor inWindow_pop) fun value _ => ?_
  split
  · exact inside_pure trivial
  · exact inside_fail rfl

/-- An operator pops its two operands and pushes one value, or finds operands that it does not apply
to. -/
theorem inside_operator {instruction : Instruction} {operator : Operator} {next : Nat}
    (works : instruction.operator? = some operator) :
    Inside id (Onward instruction next) (execute id instruction next) := by
  rw [execute_of_operator works]
  refine inside_goto (inWindow_bind inWindow_popOperands fun operands => ?_)
  split
  · exact inWindow_push _
  · exact inWindow_fail rfl

/-- Everything but a call, a return and a yield stays in its frame. One case for each instruction,
made of the lemmas above in the order in which the instruction is made of its parts. -/
theorem execute_inside (instruction : Instruction) (next : Nat)
    (plain : ∀ count, instruction ≠ .call count ∧ instruction ≠ .ret count ∧
      instruction ≠ .yield count) :
    Inside id (Onward instruction next) (execute id instruction next) := by
  cases instruction with
  | nop => exact inside_pure .goes
  | literal constant => exact inside_goto (inWindow_push _)
  | pop => exact inside_goto inWindow_pop
  | arguments =>
    exact inside_bind (inside_read _) fun chunk _ => inside_goto (inWindow_copyArguments chunk)
  | loadLocal index =>
    exact inside_goto (inWindow_bind (inWindow_loadLocal index) fun _ => inWindow_push _)
  | storeLocal index =>
    exact inside_goto (inWindow_bind inWindow_pop fun _ => inWindow_storeLocal index _)
  | loadUpvalue index =>
    exact inside_bind (inside_onProcessor (inWindow_upvalueCell index)) fun _ _ =>
      inside_bind (inside_read _) fun _ _ => inside_goto (inWindow_push _)
  | storeUpvalue index =>
    exact inside_bind (inside_onProcessor inWindow_pop) fun _ _ =>
      inside_bind (inside_onProcessor (inWindow_upvalueCell index)) fun _ _ =>
        inside_bind (inside_modify fun _ => ⟨⟨rfl, rfl, rfl, Nat.le_refl _⟩, rfl, rfl⟩) fun _ _ =>
          inside_pure .goes
  | loadGlobal name =>
    exact inside_bind (inside_read _) fun _ _ => inside_goto (inWindow_push _)
  | storeGlobal name =>
    exact inside_bind (inside_onProcessor inWindow_pop) fun _ _ =>
      inside_bind (inside_modify fun _ => ⟨⟨rfl, rfl, rfl, Nat.le_refl _⟩, rfl, rfl⟩) fun _ _ =>
        inside_pure .goes
  | makeClosure function captures =>
    exact inside_bind (inside_mapEach inside_capture captures) fun _ _ =>
      inside_bind (inside_createClosure _ _) fun _ _ => inside_goto (inWindow_push _)
  | call count => exact absurd rfl (plain count).1
  | ret count => exact absurd rfl (plain count).2.1
  | yield count => exact absurd rfl (plain count).2.2
  | tuple count =>
    exact inside_goto (inWindow_bind (inWindow_popMany count) fun _ => inWindow_push _)
  | jump target => exact inside_pure (.jumps rfl)
  | jumpIfFalse target =>
    refine inside_bind (inside_onProcessor inWindow_pop) fun value _ => inside_pure ?_
    split
    · exact .goes
    · exact .jumps rfl
  | add | subtract | less | equal | concat => exact inside_operator rfl
  | not => exact inside_goto (inWindow_bind inWindow_pop fun _ => inWindow_push _)
  | raise => exact inside_bind (inside_onProcessor inWindow_pop) fun _ _ => inside_fail rfl
  | createCoroutine =>
    exact inside_bind (inside_onProcessor inWindow_pop) fun _ _ =>
      inside_bind (inside_spawn _) fun _ _ => inside_goto (inWindow_push _)
  | resumeCoroutine count =>
    exact inside_bind (inside_onProcessor (inWindow_popMany count)) fun _ _ =>
      inside_bind (inside_popCoroutine _) fun _ _ => inside_pure (.resumes rfl)
  | coroutineStatus =>
    exact inside_bind (inside_popCoroutine _) fun _ _ =>
      inside_bind (inside_read _) fun _ _ => inside_goto (inWindow_push _)
  | currentCoroutine => exact inside_goto (inWindow_push _)

/-- What any instruction does to its processor. The three that leave their frame or stop have been
dealt with, and the others stay. -/
theorem execute_effects (instruction : Instruction) (next : Nat) {before : Store}
    (known : before.Has id) : Effects id (execute id instruction next) before := by
  cases instruction
  case call arguments => exact call_effects arguments next known
  case ret results => exact leaveFrame_effects results known
  case yield results => exact yield_effects results next known
  all_goals exact (execute_inside _ next (by simp)).effects known

/-- Only the instruction that resumes a coroutine asks for that. Every other one is ruled out by how
it ends. -/
theorem resumes_of_execute {instruction : Instruction} {next : Nat} {before after : Store}
    (known : before.Has id) {target : CoroutineId} {arguments : List Value} {resumeAt : Nat}
    (reached :
      execute id instruction next before = (.ok (.resume target arguments resumeAt), after)) :
    ∃ count, instruction = .resumeCoroutine count := by
  cases instruction
  case call count =>
    obtain ⟨_, _, opens⟩ := ((call_opens count next known).of_ok reached).own
    cases opens
  case ret count =>
    obtain ⟨_, _, returns⟩ := ((leaveFrame_returns count known).of_ok reached).own
    cases returns
  case yield count =>
    obtain ⟨_, ⟨value, yields⟩, _⟩ := (execute_yield_ends before id count next).of_ok reached
    cases yields
  all_goals
    have onward := ((execute_inside _ next (by simp) before known).of_ok reached).1
    cases onward with
    | resumes resumes => exact ⟨_, resumes⟩

end CoroutineVM.Store
