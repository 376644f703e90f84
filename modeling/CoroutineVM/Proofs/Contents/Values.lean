import CoroutineVM.Machine.Step

/-!
# What values may contain

A value is told by what it contains: the closures in it, at any depth of tuples, and whether it is a
tuple at all. A `Regime` says which closures there may be in a script and how far tuples may spread.
Values that travel, on stacks and between code and host, are `Carried`; those that are put into
cells are `Kept`. Each way in which one value is made of others stays within a regime.
-/

namespace CoroutineVM

namespace Value

/-- The closure is the value, or it is in a tuple of it at any depth. -/
inductive Contains : Value → Closure → Prop where
  | itself (closure : Closure) : Contains (.closure closure) closure
  | item {items : List Value} {item : Value} {closure : Closure} (member : item ∈ items)
      (inside : Contains item closure) : Contains (.tuple items) closure

/-- Whether this value stands for several ones. -/
def isTuple : Value → Bool
  | .tuple _ => true
  | _ => false

/-- Not a tuple, or a tuple of values that are none. -/
def Flat : Value → Prop
  | .tuple items => ∀ item ∈ items, item.isTuple = false
  | _ => True

/-- A value that is no tuple holds no tuples. -/
theorem Flat.of_single {value : Value} (single : value.isTuple = false) : value.Flat := by
  cases value with
  | tuple items => cases single
  | _ => trivial

/-- Collapsing goes on until there is no tuple any more. -/
theorem isTuple_collapse (value : Value) : value.collapse.isTuple = false := by
  fun_induction collapse value with
  | case1 => rfl
  | case2 first rest inductionHypothesis => exact inductionHypothesis
  | case3 value notEmpty notTuple =>
    cases value with
    | tuple items =>
      cases items with
      | nil => exact absurd rfl notEmpty
      | cons first rest => exact absurd rfl (notTuple first rest)
    | _ => rfl

/-- What a value collapses to is a part of it. -/
theorem Contains.of_collapse {value : Value} {closure : Closure}
    (inside : value.collapse.Contains closure) : value.Contains closure := by
  fun_induction collapse value with
  | case1 => cases inside
  | case2 first rest inductionHypothesis =>
    exact .item List.mem_cons_self (inductionHypothesis inside)
  | case3 value notEmpty notTuple => exact inside

/-- A list of arguments has no tuples left in it when it is spread: all but the last are collapsed,
and so are the items of the last one. -/
theorem isTuple_of_mem_spread {arguments : List Value} {value : Value}
    (member : value ∈ spread arguments) : value.isTuple = false := by
  fun_induction spread arguments with
  | case1 => cases member
  | case2 items =>
    obtain ⟨item, _, rfl⟩ := List.mem_map.mp member
    exact isTuple_collapse item
  | case3 single notTuple =>
    obtain rfl := List.mem_singleton.mp member
    cases value with
    | tuple items => exact absurd rfl (notTuple items)
    | _ => rfl
  | case4 first next rest inductionHypothesis =>
    obtain rfl | later := List.mem_cons.mp member
    · exact isTuple_collapse first
    · exact inductionHypothesis later

/-- A value that is no tuple is its own collapsed form. -/
theorem collapse_of_single {value : Value} (single : value.isTuple = false) :
    value.collapse = value := by
  cases value with
  | tuple items => cases single
  | _ => rfl

/-- Arguments without tuples among them are what they stand for. -/
theorem spread_of_single {arguments : List Value}
    (single : ∀ value ∈ arguments, value.isTuple = false) : spread arguments = arguments := by
  fun_induction spread arguments with
  | case1 => rfl
  | case2 items => cases single _ (List.mem_singleton_self _)
  | case3 value notTuple => rfl
  | case4 first next rest inductionHypothesis =>
    obtain ⟨here, others⟩ := List.forall_mem_cons.mp single
    rw [collapse_of_single here, inductionHypothesis others]

/-- Arguments that have been spread once stay as they are. -/
@[simp]
theorem spread_spread (arguments : List Value) : spread (spread arguments) = spread arguments :=
  spread_of_single fun _ => isTuple_of_mem_spread

/-- What arguments are spread to are parts of the arguments. The induction is that of the spread,
which collapses all of them but the last one and takes that one apart. -/
theorem Contains.of_mem_spread {arguments : List Value} {value : Value} {closure : Closure}
    (member : value ∈ spread arguments) (inside : value.Contains closure) :
    ∃ given ∈ arguments, given.Contains closure := by
  fun_induction spread arguments with
  | case1 => cases member
  | case2 items =>
    obtain ⟨item, among, rfl⟩ := List.mem_map.mp member
    exact ⟨_, List.mem_singleton_self _, .item among inside.of_collapse⟩
  | case3 single notTuple => exact ⟨value, member, inside⟩
  | case4 first next rest inductionHypothesis =>
    obtain rfl | later := List.mem_cons.mp member
    · exact ⟨first, List.mem_cons_self, inside.of_collapse⟩
    · obtain ⟨given, among, found⟩ := inductionHypothesis later
      exact ⟨given, List.mem_cons_of_mem _ among, found⟩

/-- A table holds neither nil nor tuples. -/
def isEntry : Value → Bool
  | .nil | .tuple _ => false
  | _ => true

/-- What may be stored in a table is no tuple. -/
theorem isTuple_of_isEntry {value : Value} (isEntry : value.isEntry = true) :
    value.isTuple = false := by
  cases value with
  | tuple items => cases isEntry
  | _ => rfl

/-- What is put into a table when a value is set. -/
theorem isEntry_collapse {value : Value} (notNil : value.collapse ≠ .nil) :
    value.collapse.isEntry = true := by
  have single := value.isTuple_collapse
  cases collapsed : value.collapse with
  | nil => exact absurd collapsed notNil
  | tuple items =>
    rw [collapsed] at single
    cases single
  | _ => rfl

end Value

/-- What there may be in a script. -/
structure Regime where
  chunk : Chunk
  /-- Which closures there may be. -/
  closure : Closure → Prop
  /-- Which errors there may be. -/
  raised : ScriptError → Prop
  /-- Whether cells hold no tuples. -/
  single : Prop
  /-- Whether tuples hold no tuples. -/
  flat : Prop
  /-- What is read from a cell can be put on a stack. -/
  single_of_flat : flat → single
  /-- An error is about a function that the chunk lacks only when a closure names one. -/
  raises : ∀ error, (∀ function, error ≠ .undefinedFunction function) → raised error
  misses : ∀ made, closure made → chunk.function? made.function = none →
    raised (.undefinedFunction made.function)

namespace Regime

variable (regime : Regime)

/-- Every closure in a value is one that there may be. -/
def Allows (value : Value) : Prop := ∀ made, value.Contains made → regime.closure made

/-- What a value on a stack is like. -/
structure Carried (value : Value) : Prop where
  allowed : regime.Allows value
  flat : regime.flat → value.Flat

/-- What a value in a cell is like. -/
structure Kept (value : Value) : Prop where
  allowed : regime.Allows value
  single : regime.single → value.isTuple = false

end Regime

section

variable {regime : Regime} {value : Value} {values : List Value}

/-- A value that is neither a closure nor a tuple contains nothing. -/
theorem Regime.allows_plain (single : value.isTuple = false)
    (plain : ∀ made, value ≠ .closure made) : regime.Allows value := by
  intro made inside
  cases inside with
  | itself => exact absurd rfl (plain made)
  | item => cases single

/-- In a closure there is no other closure but itself; those in its cells are not part of it. -/
theorem Regime.allows_closure {made : Closure} (allowed : regime.closure made) :
    regime.Allows (.closure made) := by
  intro other inside
  cases inside
  exact allowed

/-- What is in a tuple is in one of its items. -/
theorem Regime.allows_tuple (items : ∀ item ∈ values, regime.Allows item) :
    regime.Allows (.tuple values) := by
  intro made inside
  cases inside with
  | item member inside => exact items _ member made inside

/-- A value that is admitted collapses to one that is. -/
theorem Regime.Allows.collapse (allowed : regime.Allows value) : regime.Allows value.collapse :=
  fun made inside => allowed made inside.of_collapse

/-- So the closure that a value stands for is one that there may be, which is what a call needs. -/
theorem Regime.Allows.closure {made : Closure} (allowed : regime.Allows value)
    (isClosure : value.collapse = .closure made) : regime.closure made :=
  allowed.collapse made (isClosure ▸ .itself made)

/-- An admitted value that is no tuple may lie on a stack. -/
theorem Regime.Allows.carried (allowed : regime.Allows value) (single : value.isTuple = false) :
    regime.Carried value := ⟨allowed, fun _ => .of_single single⟩

/-- So may a value that is neither a tuple nor a closure, whatever the regime. -/
theorem Regime.carried_plain (single : value.isTuple = false)
    (plain : ∀ made, value ≠ .closure made) : regime.Carried value :=
  (allows_plain single plain).carried single

/-- And a closure that there may be. -/
theorem Regime.carried_closure {made : Closure} (allowed : regime.closure made) :
    regime.Carried (.closure made) := (allows_closure allowed).carried rfl

/-- What is in a cell may be put on a stack: if no tuple there may hold tuples, then no cell holds a
tuple at all. -/
theorem Regime.Kept.carried (kept : regime.Kept value) : regime.Carried value :=
  ⟨kept.allowed, fun flat => .of_single (kept.single (regime.single_of_flat flat))⟩

/-- A collapsed value may be put into a cell. -/
theorem Regime.Allows.kept_collapse (allowed : regime.Allows value) : regime.Kept value.collapse :=
  ⟨allowed.collapse, fun _ => value.isTuple_collapse⟩

/-- Arguments that are admitted spread to values that are. -/
theorem Regime.allows_spread (given : ∀ argument ∈ values, regime.Allows argument) :
    ∀ argument ∈ Value.spread values, regime.Allows argument := by
  intro argument member made inside
  obtain ⟨source, among, found⟩ := Value.Contains.of_mem_spread member inside
  exact given source among made found

/-- None of these values is a tuple, so that they may lie on a stack. -/
theorem Regime.carried_spread (given : ∀ argument ∈ values, regime.Allows argument) :
    ∀ argument ∈ Value.spread values, regime.Carried argument :=
  fun argument member =>
    (allows_spread given argument member).carried (Value.isTuple_of_mem_spread member)

/-- A tuple of values that are no tuples may lie on a stack. -/
theorem Regime.carried_tuple (items : ∀ item ∈ values, regime.Allows item)
    (single : ∀ item ∈ values, item.isTuple = false) : regime.Carried (.tuple values) :=
  ⟨allows_tuple items, fun _ => single⟩

/-- A result may lie on a stack if its values are no tuples, be it none of them, one or several. -/
theorem Regime.carried_pack (items : ∀ item ∈ values, regime.Carried item)
    (single : ∀ item ∈ values, item.isTuple = false) : regime.Carried (.pack values) := by
  match values with
  | [] => exact carried_plain rfl (fun _ => Value.noConfusion)
  | [value] => exact items value List.mem_cons_self
  | _ :: _ :: _ => exact carried_tuple (fun item member => (items item member).allowed) single

/-- The one value that stands for a list of arguments. -/
theorem Regime.carried_pack_spread (given : ∀ argument ∈ values, regime.Allows argument) :
    regime.Carried (.pack (Value.spread values)) :=
  carried_pack (carried_spread given) fun _ => Value.isTuple_of_mem_spread

/-- A value that lies on a stack is taken apart into admitted ones, which are no tuples where tuples
hold none. -/
theorem Regime.Carried.expand (carried : regime.Carried value) :
    (∀ item ∈ value.expand, regime.Allows item) ∧
      (regime.flat → ∀ item ∈ value.expand, item.isTuple = false) := by
  cases value with
  | tuple items =>
    exact ⟨fun item member made inside => carried.allowed made (.item member inside), carried.flat⟩
  | _ =>
    refine ⟨fun item member => ?_, fun _ item member => ?_⟩
    · obtain rfl := List.mem_singleton.mp member
      exact carried.allowed
    · obtain rfl := List.mem_singleton.mp member
      rfl

/-- The tuple that tells code how a resume went has no more in it than what the resume gave. -/
theorem Regime.carried_resumeReport {outcome : Outcome}
    (given : ∀ exit, outcome = .ok exit → regime.Carried exit.value) :
    regime.Carried (Machine.resumeReport outcome) := by
  cases outcome with
  | ok exit =>
    obtain ⟨allowed, single⟩ := (given exit rfl).expand
    refine ⟨allows_tuple (List.forall_mem_cons.mpr ⟨?_, allowed⟩), fun flat => ?_⟩
    · exact allows_plain rfl (fun _ => Value.noConfusion)
    · exact List.forall_mem_cons.mpr ⟨rfl, single flat⟩
  | error error =>
    refine carried_tuple ?_ ?_ <;>
      simp only [List.forall_mem_cons, List.not_mem_nil, false_implies, implies_true, and_true]
    · exact ⟨allows_plain rfl (fun _ => Value.noConfusion),
        allows_plain rfl (fun _ => Value.noConfusion)⟩
    · exact ⟨rfl, rfl⟩

end

end CoroutineVM
