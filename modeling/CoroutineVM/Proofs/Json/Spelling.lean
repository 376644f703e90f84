import CoroutineVM.Proofs.Json.Doubles
import CoroutineVM.Proofs.Json.Layouts

/-!
# The tokens of a value

A value has its tokens in one order (`spelling`), and a text that lays them out is cut back into
them (`tokens_of_laidOut`), because in a spelling a number is followed by a comma, a closing bracket
or nothing. What a property has to do for this to carry it over a spelling is `Passes`.

Writing a value lays out tokens too, although the writer does not name them. They are those of the
value itself but for its numbers: a numeral need not lead back to the number that it was written
for, and a number that is not finite has none. `reread` is the value that the text says, and
`laidOut_write` that the text lays out its tokens. Where all numbers read back this is the value
itself (`Writable.reread`).
-/

namespace CoroutineVM

namespace Json

/-- What holds of a value if it holds of its parts, holds of every value. Items and members are
lists of values, which the recursion that comes with the type does not reach. -/
@[elab_as_elim]
theorem induction {motive : Json → Prop} (value : Json) (null : motive .null)
    (boolean : ∀ value, motive (.boolean value)) (number : ∀ value, motive (.number value))
    (string : ∀ value, motive (.string value))
    (array : ∀ items, (∀ item ∈ items, motive item) → motive (.array items))
    (object : ∀ members, (∀ member ∈ members, motive member.2) → motive (.object members))
    (unsound : motive .unsound) : motive value :=
  @Json.rec motive (fun items => ∀ item ∈ items, motive item)
    (fun members => ∀ member ∈ members, motive member.2) (fun member => motive member.2)
    null boolean number string array object unsound
    (by simp) (fun _ _ first later => List.forall_mem_cons.2 ⟨first, later⟩)
    (by simp) (fun _ _ first later => List.forall_mem_cons.2 ⟨first, later⟩)
    (fun _ _ value => value) value

variable {rest : List Token} {text : List Char}

/-- The tokens of a value, in the order of its text. Of the parts that are unsound, this spells a
number out of range. -/
def spelling : Json → List Token
  | .null => [.null]
  | .boolean value => [.boolean value]
  | .number value => [.number (some value)]
  | .string value => [.text (some value)]
  | .array items => .openArray :: (spellItems items ++ [.closeArray])
  | .object members => .openObject :: (spellMembers members ++ [.closeObject])
  | .unsound => [.number none]
where
  /-- The items, separated by commas. -/
  spellItems : List Json → List Token
    | [] => []
    | [item] => spelling item
    | item :: rest => spelling item ++ .comma :: spellItems rest
  /-- The members, separated by commas. -/
  spellMembers : List (String × Json) → List Token
    | [] => []
    | [(name, value)] => .text (some name) :: .colon :: spelling value
    | (name, value) :: rest =>
      .text (some name) :: .colon :: (spelling value ++ .comma :: spellMembers rest)

/-! ### What holds of the tokens of a value -/

/-- The property of some tokens passes to what stands in front of them: to a sound token that is no
number, and to a number that is not followed by another. -/
structure Passes (holds : List Token → Prop) : Prop where
  other : ∀ {token found}, token.isNumber = false → token.isSound = true → holds found →
    holds (token :: found)
  number : ∀ {number found}, NoNumberFirst found → holds found → holds (.number number :: found)

/-- The property passes to the tokens of the value. -/
def PassesTo (holds : List Token → Prop) (value : Json) : Prop :=
  ∀ rest, NoNumberFirst rest → holds rest → holds (value.spelling ++ rest)

namespace Passes

variable {holds : List Token → Prop}

/-- What passes to each item of an array passes to all of them with the brackets around. The
induction goes from the back, since what holds of the tokens after an item is asked first. -/
theorem items (passes : Passes holds) {items : List Json}
    (all : ∀ item ∈ items, PassesTo holds item) (after : holds rest) :
    holds (spelling.spellItems items ++ .closeArray :: rest) := by
  have close : holds (.closeArray :: rest) := passes.other rfl rfl after
  induction items with
  | nil => exact close
  | cons item items inductionHypothesis =>
    have first := all item List.mem_cons_self
    have later := inductionHypothesis fun item member => all item (List.mem_cons_of_mem _ member)
    cases items with
    | nil => exact first _ (noNumberFirst_cons rfl) close
    | cons next items =>
      rw [spelling.spellItems, List.append_assoc]
      · exact first _ (noNumberFirst_cons rfl) (passes.other rfl rfl later)
      · exact List.cons_ne_nil _ _

/-- The same for the members of an object, whose names come before their values. -/
theorem members (passes : Passes holds) {members : List (String × Json)}
    (all : ∀ member ∈ members, PassesTo holds member.2) (after : holds rest) :
    holds (spelling.spellMembers members ++ .closeObject :: rest) := by
  have close : holds (.closeObject :: rest) := passes.other rfl rfl after
  induction members with
  | nil => exact close
  | cons member members inductionHypothesis =>
    obtain ⟨name, value⟩ := member
    have first : PassesTo holds value := all (name, value) List.mem_cons_self
    have later := inductionHypothesis fun member among =>
      all member (List.mem_cons_of_mem _ among)
    cases members with
    | nil =>
      refine passes.other rfl rfl (passes.other rfl rfl ?_)
      exact first _ (noNumberFirst_cons rfl) close
    | cons next members =>
      simp only [spelling.spellMembers, List.append_assoc, List.cons_append]
      refine passes.other rfl rfl (passes.other rfl rfl ?_)
      exact first _ (noNumberFirst_cons rfl) (passes.other rfl rfl later)

/-- In a spelling a number is followed by a comma or a closing bracket, so the property passes from
token to token. -/
theorem spelling (passes : Passes holds) (value : Json) : PassesTo holds value := by
  induction value using Json.induction with
  | null | boolean | string => exact fun rest _ after => passes.other rfl rfl after
  | number | unsound => exact fun rest first after => passes.number first after
  | array items all =>
    intro rest _ after
    rw [Json.spelling, List.cons_append, List.append_assoc]
    exact passes.other rfl rfl (passes.items all after)
  | object members all =>
    intro rest _ after
    rw [Json.spelling, List.cons_append, List.append_assoc]
    exact passes.other rfl rfl (passes.members all after)

/-- What holds of no tokens holds of those of a value. -/
theorem alone (passes : Passes holds) (none : holds []) (value : Json) : holds value.spelling := by
  have whole := passes.spelling value [] (fun _ member => by cases member) none
  rwa [List.append_nil] at whole

end Passes

/-- That no two numbers are next to each other passes to the tokens of a value, as each of its
numbers is followed by a token that is none. -/
theorem passes_apart : Passes Apart where
  other other _ apart := by
    refine apart_cons.2 ⟨fun number => ?_, apart⟩
    rw [other] at number
    cases number
  number first apart := apart_cons.2 ⟨fun _ => first, apart⟩

/-- A text of a value is cut into the tokens of the value. -/
theorem tokens_of_laidOut {value : Json} (laidOut : LaidOut value.spelling text) :
    tokens text = value.spelling :=
  laidOut.tokens (passes_apart.alone List.IsChain.nil value)

end Json

/-! ### Written values -/

open Json in
/-- What the text of a number says; `null` if it has no numeral. -/
def JsonNumber.reread (number : JsonNumber) : Json :=
  match readNumber (writeNumber number) with
  | .ok (said, _) => said.elim .unsound .number
  | .error _ => .null

/-- A number that reads back is said by its text. -/
theorem JsonNumber.ReadsBack.reread {number : JsonNumber} (readsBack : number.ReadsBack) :
    number.reread = .number number := by
  rw [JsonNumber.reread, readsBack]
  rfl

namespace Json

/-- What the text of a value says. -/
def reread : Json → Json
  | .number value => value.reread
  | .unsound => .null
  | .array items => .array (rereadItems items)
  | .object members => .object (rereadMembers members)
  | value => value
where
  rereadItems : List Json → List Json
    | [] => []
    | item :: rest => reread item :: rereadItems rest
  rereadMembers : List (String × Json) → List (String × Json)
    | [] => []
    | (name, value) :: rest => (name, reread value) :: rereadMembers rest

/-- A single spelling lays out its token. -/
theorem laidOut_token {token : Token} {word : List Char} (spelt : token.SpeltAs word) :
    LaidOut [token] word := by
  have alone := LaidOut.token spelt .nil
  rwa [List.append_nil] at alone

/-- The text of a number lays out what it says. That of a number which is not finite is the word for
nothing. -/
theorem laidOut_writeNumber (number : JsonNumber) :
    LaidOut number.reread.spelling (writeNumber number) := by
  rcases readNumber_writeNumber number with ⟨read, reads⟩ | none
  · have said : number.reread.spelling = [.number read] := by
      rw [JsonNumber.reread, reads]
      cases read <;> rfl
    rw [said]
    exact laidOut_token (.number reads)
  · have said : number.reread = .null := by
      rw [JsonNumber.reread, none]
      rfl
    rw [said, none]
    exact laidOut_token .null

/-- A string is laid out by what it is written as. -/
theorem laidOut_writeText (text : String) :
    LaidOut [.text (some text)] (writeText text) := by
  have spelt := Token.SpeltAs.text (textSpelt_writeChar text.toList)
  rw [String.ofList_toList] at spelt
  exact laidOut_token spelt

/-- The text of the value lays out the tokens of what it says. -/
def Says (value : Json) : Prop := LaidOut value.reread.spelling value.write

/-- What the items of an array are written as lays out their tokens. -/
theorem laidOut_items {items : List Json} (all : ∀ item ∈ items, Says item) :
    LaidOut (spelling.spellItems (reread.rereadItems items)) (write.writeItems items) := by
  induction items with
  | nil => exact .nil
  | cons item items inductionHypothesis =>
    have first := all item List.mem_cons_self
    have later := inductionHypothesis fun item member => all item (List.mem_cons_of_mem _ member)
    cases items with
    | nil => exact first
    | cons next items => exact first.append (.token (.mark (c := ',') rfl) later)

/-- The same for the members of an object. -/
theorem laidOut_members {members : List (String × Json)}
    (all : ∀ member ∈ members, Says member.2) :
    LaidOut (spelling.spellMembers (reread.rereadMembers members))
      (write.writeMembers members) := by
  induction members with
  | nil => exact .nil
  | cons member members inductionHypothesis =>
    obtain ⟨name, value⟩ := member
    have first : Says value := all (name, value) List.mem_cons_self
    have later := inductionHypothesis fun member among =>
      all member (List.mem_cons_of_mem _ among)
    cases members with
    | nil => exact (laidOut_writeText name).append (.token (.mark (c := ':') rfl) first)
    | cons next members =>
      refine (laidOut_writeText name).append (.token (.mark (c := ':') rfl) ?_)
      exact first.append (.token (.mark (c := ',') rfl) later)

/-- Writing a value lays out the tokens of what its text says. The induction is on the value; the
writer puts no blanks between them. -/
theorem laidOut_write (value : Json) : LaidOut value.reread.spelling value.write := by
  induction value using Json.induction with
  | null | unsound => exact laidOut_token .null
  | boolean value =>
    cases value with
    | true => exact laidOut_token .yes
    | false => exact laidOut_token .no
  | number value => exact laidOut_writeNumber value
  | string value => exact laidOut_writeText value
  | array items all =>
    exact .token (.mark (c := '[') rfl) ((laidOut_items all).append (laidOut_token (.mark rfl)))
  | object members all =>
    exact .token (.mark (c := '\x7b') rfl)
      ((laidOut_members all).append (laidOut_token (.mark rfl)))

/-- A value whose text says all of it: it has no unsound part, and its numbers read back. -/
inductive Writable : Json → Prop
  | null : Writable .null
  | boolean (value : Bool) : Writable (.boolean value)
  | number {value : JsonNumber} (readsBack : value.ReadsBack) : Writable (.number value)
  | string (value : String) : Writable (.string value)
  | array {items : List Json} (all : ∀ item ∈ items, Writable item) : Writable (.array items)
  | object {members : List (String × Json)} (all : ∀ member ∈ members, Writable member.2) :
      Writable (.object members)

/-- The items of an array are read back one by one. -/
theorem rereadItems_eq_map (items : List Json) : reread.rereadItems items = items.map reread := by
  induction items with
  | nil => rfl
  | cons item items inductionHypothesis =>
    rw [reread.rereadItems, inductionHypothesis, List.map_cons]

/-- So are the members of an object, with their names as they are. -/
theorem rereadMembers_eq_map (members : List (String × Json)) :
    reread.rereadMembers members = members.map fun member => (member.1, member.2.reread) := by
  induction members with
  | nil => rfl
  | cons member members inductionHypothesis =>
    rw [reread.rereadMembers, inductionHypothesis, List.map_cons]

/-- A value whose numbers all read back is said by its text as it is. -/
theorem Writable.reread {value : Json} (writable : value.Writable) : value.reread = value := by
  induction writable with
  | null | boolean | string => rfl
  | number readsBack => exact readsBack.reread
  | array _ all =>
    rw [Json.reread, rereadItems_eq_map, List.map_congr_left all, List.map_id']
  | object _ all =>
    rw [Json.reread, rereadMembers_eq_map, List.map_congr_left fun member among => by
      rw [all member among], List.map_id']

end Json

end CoroutineVM
