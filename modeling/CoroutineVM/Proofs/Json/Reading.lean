import CoroutineVM.Json.Reader
import CoroutineVM.Proofs.Json.Spelling

/-!
# What is written is read back

The reader of tokens holds the open containers in its stage and never looks back. So the statement
that carries the proof is about any open place: from a place that wants a value, the spelling of a
value leads to the stage that has just been given this value (`run_spelling`), with the tokens after
it still to come. Items and members gather in the innermost open container latest first, hence the
`reverse` in the two lemmas about them.

So every layout of a value is read as the value (`read_of_laidOut`), and `read_render` is the case
of the text that is written.
-/

namespace CoroutineVM.Json

variable {around : List Slot} {more : List Token}

/-- The spelling of the value leads from an open place to the stage that follows the value there. -/
def ReadsAsSpelt (value : Json) : Prop :=
  ∀ around more,
    (Stage.wantValue around).run (value.spelling ++ more) = (Stage.deliver value around).run more

/-- No value is spelt with a closing bracket first, so the first item of an array is read as any
other. -/
theorem run_firstItem (item : Json) (items : List Json) :
    (Stage.firstItem around).run (spelling.spellItems (item :: items) ++ more) =
      (Stage.wantValue (.item [] :: around)).run (spelling.spellItems (item :: items) ++ more) := by
  cases items <;> cases item <;> rfl

/-- The items after those that came before, up to the end of the array. The induction is on the
items that are left, over all that came before, each of them read as the induction on values has
it. -/
theorem run_items {items : List Json} (all : ∀ item ∈ items, ReadsAsSpelt item)
    (nonempty : items ≠ []) (before : List Json) :
    (Stage.wantValue (.item before :: around)).run
        (spelling.spellItems items ++ .closeArray :: more) =
      (Stage.deliver (.array (before.reverse ++ items)) around).run more := by
  induction items generalizing before with
  | nil => exact absurd rfl nonempty
  | cons item items inductionHypothesis =>
    have first := all item List.mem_cons_self
    have later : ∀ item ∈ items, ReadsAsSpelt item := fun item member =>
      all item (List.mem_cons_of_mem _ member)
    cases items with
    | nil =>
      have gathered : (item :: before).reverse = before.reverse ++ [item] := List.reverse_cons
      rw [spelling.spellItems, first, ← gathered]
      rfl
    | cons next items =>
      have gathered : (item :: before).reverse ++ next :: items =
          before.reverse ++ item :: next :: items := by simp
      rw [spelling.spellItems, List.append_assoc, first, ← gathered]
      · exact inductionHypothesis later (List.cons_ne_nil _ _) (item :: before)
      · exact List.cons_ne_nil _ _

/-- Members as the reader holds them, with names that are sound. -/
def named (members : List (String × Json)) : List (Option String × Json) :=
  members.map fun member => (some member.1, member.2)

/-- Members that all have their names make up an object, in the order in which they stand. -/
theorem objectOf_named (members : List (String × Json)) :
    objectOf (named members).reverse = .object members := by
  have all : (named members).mapM (fun member => member.1.map (·, member.2)) = some members := by
    induction members with
    | nil => rfl
    | cons member members inductionHypothesis =>
      simp only [named, List.map_cons, List.mapM_cons] at inductionHypothesis ⊢
      rw [inductionHypothesis]
      rfl
  rw [objectOf, List.reverse_reverse, all]

/-- The members after those that came before, up to the end of the object. It goes as for items,
with a name and a colon before each value. -/
theorem run_members {members : List (String × Json)}
    (all : ∀ member ∈ members, ReadsAsSpelt member.2) (nonempty : members ≠ [])
    (before : List (String × Json)) :
    (Stage.wantName (named before).reverse around).run
        (spelling.spellMembers members ++ .closeObject :: more) =
      (Stage.deliver (.object (before ++ members)) around).run more := by
  induction members generalizing before with
  | nil => exact absurd rfl nonempty
  | cons member members inductionHypothesis =>
    obtain ⟨name, value⟩ := member
    have first : ReadsAsSpelt value := all (name, value) List.mem_cons_self
    have later : ∀ member ∈ members, ReadsAsSpelt member.2 := fun member among =>
      all member (List.mem_cons_of_mem _ among)
    have gathered : (some name, value) :: (named before).reverse =
        (named (before ++ [(name, value)])).reverse := by simp [named]
    cases members with
    | nil =>
      change (Stage.wantValue _).run (value.spelling ++ _) = _
      rw [first, ← objectOf_named, ← gathered]
      rfl
    | cons next members =>
      have joined : before ++ (name, value) :: next :: members =
          before ++ [(name, value)] ++ next :: members := by simp
      change (Stage.wantValue _).run ((value.spelling ++ .comma :: _) ++ _) = _
      rw [List.append_assoc, first, joined, ← inductionHypothesis later (List.cons_ne_nil _ _),
        ← gathered]
      rfl

/-- The spelling of a value is read as the value, at every open place. The induction is on the
value, and it is over all places, since the parts of a container are read at places of their own. -/
theorem run_spelling (value : Json) : ReadsAsSpelt value := by
  induction value using Json.induction with
  | null | boolean | number | string | unsound => exact fun around more => rfl
  | array items all =>
    intro around more
    cases items with
    | nil => rfl
    | cons item items =>
      have inside := @run_items around more _ all (List.cons_ne_nil _ _) []
      rw [spelling, List.cons_append, List.append_assoc]
      exact Eq.trans (run_firstItem item items) inside
  | object members all =>
    intro around more
    cases members with
    | nil => rfl
    | cons member members =>
      have inside := @run_members around more _ all (List.cons_ne_nil _ _) []
      rw [spelling, List.cons_append, List.append_assoc]
      refine Eq.trans ?_ inside
      cases members <;> rfl

/-- However a value is laid out, its text is read as the value. -/
theorem read_of_laidOut {value : Json} {text : String}
    (laidOut : LaidOut value.spelling text.toList) : read text = .ok value := by
  have whole := run_spelling value [] []
  rw [List.append_nil] at whole
  rw [read, tokens_of_laidOut laidOut, whole]
  rfl

/-- A written value is read as what its text says. -/
theorem read_render (value : Json) : read value.render = .ok value.reread := by
  apply read_of_laidOut
  rw [render, String.toList_ofList]
  exact laidOut_write value

end CoroutineVM.Json
