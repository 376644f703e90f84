import CoroutineVM.Proofs.Chunk.RoundTrip
import Mathlib.Data.List.Forall2

/-!
# Values that say the same chunk

A record of the format may have its fields in any order, the name of an alternative among them, and
fields that the format does not know. Parameters and variadicity may be left out where there are
none, and the empty constant may have an empty content. The `Arranged` predicates put these freedoms
together, level by level: constants and captures, instructions, functions, and the chunk.

They end where a record is opened. Its reader asks for each field by its name, and the answer is the
same for every arrangement (`fieldOf_of_rearranged`). So each predicate has one lemma, that an
arranged value is read as the canonical one. An instruction is looked at in full before it is
opened, which is why unknown fields inside of one have to fit, and those of functions and chunks
have not.

The canonical value has its numbers as the canonical text says them (`Json.reread`), so that nothing
is asked of the chunk.
-/

namespace CoroutineVM

open Json

/-- The members of an object. -/
def Json.members : Json → List (String × Json)
  | .object members => members
  | _ => []

variable {names : List String} {admitted : Json → Prop} {fields members : List (String × Json)}

/-! ### Fields in any order -/

/-- The fields in any order, among fields of other names whose values are admitted. -/
def Rearranged (names : List String) (admitted : Json → Prop)
    (fields members : List (String × Json)) : Prop :=
  ∃ others, members.Perm (fields ++ others) ∧
    ∀ other ∈ others, other.1 ∉ names ∧ admitted other.2

/-- Leaving everything where it is is a way to rearrange it. -/
theorem rearranged_self (names : List String) (admitted : Json → Prop)
    (fields : List (String × Json)) : Rearranged names admitted fields fields :=
  ⟨[], by simp, by simp⟩

/-- What stands under a name in two lists of fields stands there in both together. -/
theorem valuesAt_append (name : String) (fields others : List (String × Json)) :
    valuesAt name (fields ++ others) = valuesAt name fields ++ valuesAt name others :=
  List.filterMap_append

/-- A reader that asks for a field by its name sees nothing of the order, nor of fields with other
names. -/
theorem fieldOf_of_rearranged (rearranged : Rearranged names admitted fields members)
    {name : String} (known : name ∈ names) : fieldOf members name = fieldOf fields name := by
  obtain ⟨others, order, unknown⟩ := rearranged
  have none : valuesAt name others = [] := by
    refine List.filterMap_eq_nil_iff.2 fun other among => if_neg ?_
    rintro rfl
    exact (unknown other among).1 known
  have values : (valuesAt name members).Perm (valuesAt name fields) := by
    have all : (valuesAt name members).Perm (valuesAt name (fields ++ others)) :=
      order.filterMap _
    rwa [valuesAt_append, none, List.append_nil] at all
  -- At most one value is delivered, and a list of at most one has no other order.
  rw [fieldOf, fieldOf]
  rcases found : valuesAt name fields with _ | ⟨first, _ | ⟨second, later⟩⟩
  · rw [found, List.perm_nil] at values
    rw [values]
  · rw [found, List.perm_singleton] at values
    rw [values]
  · rw [found] at values
    have long := values.length_eq
    rcases listed : valuesAt name members with _ | ⟨one, _ | ⟨other, more⟩⟩
    · simp [listed] at long
    · simp [listed] at long
    · rfl

/-- A record whose fields of these names are answered alike is opened alike. -/
theorem fields_congr (same : ∀ name ∈ names, fieldOf members name = fieldOf fields name)
    (surplus : Fault) :
    Json.fields surplus names (.object members) = Json.fields surplus names (.object fields) := by
  change names.mapM (fieldOf members) = names.mapM (fieldOf fields)
  induction names with
  | nil => rfl
  | cons name names inductionHypothesis =>
    rw [List.mapM_cons, List.mapM_cons, same name List.mem_cons_self,
      inductionHypothesis fun other among => same other (List.mem_cons_of_mem _ among)]

/-- The fields of a record are read by their names. -/
theorem fields_of_rearranged (rearranged : Rearranged names admitted fields members)
    (surplus : Fault) :
    Json.fields surplus names (.object members) = Json.fields surplus names (.object fields) :=
  fields_congr (fun _ known => fieldOf_of_rearranged rearranged known) surplus

/-- Members fit if each of them does, in any order. -/
theorem membersFit_eq_all (depth : Nat) (members : List (String × Json)) :
    fits.membersFit depth members = members.all fun member => member.2.fits depth := by
  induction members with
  | nil => rfl
  | cons member members inductionHypothesis =>
    rw [fits.membersFit, inductionHypothesis, List.all_cons]

/-- Whether a record may be read in full is up to the fields that the format knows. -/
theorem membersFit_of_rearranged {depth : Nat}
    (rearranged : Rearranged names admitted fields members)
    (fit : ∀ value, admitted value → value.fits depth = true) :
    fits.membersFit depth members = fits.membersFit depth fields := by
  obtain ⟨others, order, unknown⟩ := rearranged
  have surplus : (others.all fun other => other.2.fits depth) = true :=
    List.all_eq_true.2 fun other among => fit _ (unknown other among).2
  rw [membersFit_eq_all, membersFit_eq_all, order.all_eq, List.all_append, surplus, Bool.and_true]

/-- A list is read item by item, each as the canonical one in its place. -/
theorem mapM_of_forall₂ {α β : Type} {Arranged : α → Json → Prop} {canonical : α → Json}
    {read : Json → Except Fault β} {parts : List α} {items : List Json}
    (arranged : List.Forall₂ Arranged parts items)
    (reads : ∀ part item, Arranged part item → read item = read (canonical part)) :
    items.mapM read = (parts.map canonical).mapM read := by
  induction arranged with
  | nil => rfl
  | cons first _ inductionHypothesis =>
    rw [List.map_cons, List.mapM_cons, List.mapM_cons, reads _ _ first, inductionHypothesis]

/-- Items fit if the canonical ones do that they are arrangements of. -/
theorem itemsFit_of_forall₂ {α : Type} {Arranged : α → Json → Prop} {canonical : α → Json}
    {depth : Nat} {parts : List α} {items : List Json}
    (arranged : List.Forall₂ Arranged parts items)
    (fit : ∀ part item, Arranged part item → item.fits depth = (canonical part).fits depth) :
    fits.itemsFit depth items = fits.itemsFit depth (parts.map canonical) := by
  induction arranged with
  | nil => rfl
  | cons first _ inductionHypothesis =>
    rw [List.map_cons, fits.itemsFit, fits.itemsFit, fit _ _ first, inductionHypothesis]

/-! ### Constants and captures -/

/-- A value that may stand in an instruction inside of this many containers. -/
def Within (containers : Nat) (value : Json) : Prop :=
  value.fits (Instruction.greatestDepth - containers) = true

/-- Rearranged, an alternative gives the same name and the same content. -/
theorem asAlternative_of_rearranged (rearranged : Rearranged ["t", "v"] admitted fields members) :
    asAlternative (.object members) = asAlternative (.object fields) := by
  rw [asAlternative, asAlternative, fieldOf_of_rearranged rearranged (by simp),
    fieldOf_of_rearranged rearranged (by simp)]

/-- A value that says the constant. The empty constant may have an empty content. -/
inductive Constant.Arranged (constant : Constant) : Json → Prop
  | fields {members : List (String × Json)}
      (rearranged : Rearranged ["t", "v"] (Within 2) constant.toJson.reread.members members) :
      Arranged constant (.object members)
  | emptied {members : List (String × Json)} (isNil : constant = .nil)
      (rearranged : Rearranged ["t", "v"] (Within 2) [("t", .string "Nil"), ("v", .null)] members) :
      Arranged constant (.object members)

namespace Constant.Arranged

variable {constant : Constant} {value : Json}

/-- An arranged constant is read as the canonical one, since its reader asks for the name and the
content only. -/
theorem reads (arranged : constant.Arranged value) :
    Constant.ofJson value = Constant.ofJson constant.toJson.reread := by
  cases arranged with
  | fields rearranged =>
    rw [Constant.ofJson, asAlternative_of_rearranged rearranged]
    cases constant <;> rfl
  | emptied isNil rearranged =>
    rw [Constant.ofJson, asAlternative_of_rearranged rearranged, isNil]
    rfl

/-- It also fits where the canonical one does, which matters inside of an instruction. -/
theorem fits (arranged : constant.Arranged value) :
    value.fits (Instruction.greatestDepth - 1) =
      constant.toJson.reread.fits (Instruction.greatestDepth - 1) := by
  cases arranged with
  | fields rearranged =>
    have same := membersFit_of_rearranged rearranged fun _ fit => fit
    refine Eq.trans same ?_
    cases constant <;> rfl
  | emptied isNil rearranged =>
    have same := membersFit_of_rearranged rearranged fun _ fit => fit
    rw [isNil]
    exact same

end Constant.Arranged

/-- The canonical form is one of the arrangements. -/
theorem Constant.arranged_self (constant : Constant) :
    constant.Arranged constant.toJson.reread := by
  have canonical : constant.toJson.reread = .object constant.toJson.reread.members := by
    cases constant <;> rfl
  rw [canonical]
  exact .fields (rearranged_self _ _ _)

/-- A value that says the capture. -/
inductive Capture.Arranged (capture : Capture) : Json → Prop
  | fields {members : List (String × Json)}
      (rearranged : Rearranged ["t", "v"] (Within 3) capture.toJson.reread.members members) :
      Arranged capture (.object members)

namespace Capture.Arranged

variable {capture : Capture} {value : Json}

/-- An arranged capture is read as the canonical one. -/
theorem reads (arranged : capture.Arranged value) :
    Capture.ofJson value = Capture.ofJson capture.toJson.reread := by
  obtain ⟨rearranged⟩ := arranged
  rw [Capture.ofJson, asAlternative_of_rearranged rearranged]
  cases capture <;> rfl

/-- It fits where the canonical one does. -/
theorem fits (arranged : capture.Arranged value) :
    value.fits (Instruction.greatestDepth - 2) =
      capture.toJson.reread.fits (Instruction.greatestDepth - 2) := by
  obtain ⟨rearranged⟩ := arranged
  refine Eq.trans (membersFit_of_rearranged rearranged fun _ fit => fit) ?_
  cases capture <;> rfl

end Capture.Arranged

/-- The canonical form is one of the arrangements. -/
theorem Capture.arranged_self (capture : Capture) :
    capture.Arranged capture.toJson.reread := by
  have canonical : capture.toJson.reread = .object capture.toJson.reread.members := by
    cases capture <;> rfl
  rw [canonical]
  exact .fields (rearranged_self _ _ _)

/-! ### Instructions -/

/-- The operands of an instruction in their order, each a value that says it. -/
def Instruction.OperandsArranged : Instruction → List (String × Json) → Prop
  | .literal constant, operands => ∃ value, constant.Arranged value ∧ operands = [("v", value)]
  | .makeClosure function captures, operands =>
    ∃ items, List.Forall₂ Capture.Arranged captures items ∧
      operands = [("function", (Json.index function).reread), ("captures", .array items)]
  | instruction, operands => operands = reread.rereadMembers instruction.operands

/-- A value that says the instruction. -/
inductive Instruction.Arranged (instruction : Instruction) : Json → Prop
  | fields {operands members : List (String × Json)} (said : instruction.OperandsArranged operands)
      (rearranged : Rearranged ("t" :: instruction.operands.map Prod.fst) (Within 1)
        (("t", .string instruction.tag) :: operands) members) :
      Arranged instruction (.object members)

namespace Instruction

/-- An instruction with one operand is read from the field of its name. -/
theorem ofOperand_congr {α : Type} {make : α → Instruction} {read : Json → Except Fault α}
    {name : String} (same : fieldOf members name = fieldOf fields name) :
    ofOperand make read name (.object members) = ofOperand make read name (.object fields) := by
  have asked : Json.fields .misshapen [name] (.object members) =
      Json.fields .misshapen [name] (.object fields) := fields_congr (by simpa using same) _
  rw [ofOperand, ofOperand, asked]

/-- The operands of an instruction are read from the fields of their names. -/
theorem ofTag_congr (instruction : Instruction)
    (same : ∀ name ∈ instruction.operands.map Prod.fst,
      fieldOf members name = fieldOf fields name) :
    ofTag instruction.tag (.object members) = ofTag instruction.tag (.object fields) := by
  cases instruction with
  | makeClosure function captures =>
    have asked := fields_congr same .misshapen
    change closureOfJson (.object members) = closureOfJson (.object fields)
    rw [closureOfJson, closureOfJson]
    simp only [operands, List.map_cons, List.map_nil] at asked
    rw [asked]
  | literal value => exact ofOperand_congr (same "v" (by simp [operands]))
  | loadLocal index | storeLocal index | loadUpvalue index | storeUpvalue index =>
    exact ofOperand_congr (same "index" (by simp [operands]))
  | loadGlobal name | storeGlobal name => exact ofOperand_congr (same "name" (by simp [operands]))
  | call count | resumeCoroutine count => exact ofOperand_congr (same "argc" (by simp [operands]))
  | ret count | yield count | tuple count =>
    exact ofOperand_congr (same "count" (by simp [operands]))
  | jump target | jumpIfFalse target =>
    exact ofOperand_congr (same "target" (by simp [operands]))
  | _ => rfl

variable {instruction : Instruction} {operands : List (String × Json)}

namespace OperandsArranged

/-- The operands are read as the canonical ones. Each kind of instruction asks for the fields that
it has, and a list of captures is read item by item. -/
theorem reads (said : instruction.OperandsArranged operands) :
    ofTag instruction.tag (.object (("t", .string instruction.tag) :: operands)) =
      ofTag instruction.tag instruction.toJson.reread := by
  cases instruction with
  | literal constant =>
    obtain ⟨value, arranged, rfl⟩ := said
    change (Constant.ofJson value >>= fun value => pure (literal value)) =
      (Constant.ofJson constant.toJson.reread >>= fun value => pure (literal value))
    rw [arranged.reads]
  | makeClosure function captures =>
    obtain ⟨items, arranged, rfl⟩ := said
    change (asIndex (Json.index function).reread >>= fun function =>
        items.mapM Capture.ofJson >>= fun captures => pure (makeClosure function captures)) =
      (asIndex (Json.index function).reread >>= fun function =>
        (reread.rereadItems (captures.map Capture.toJson)).mapM Capture.ofJson >>= fun captures =>
          pure (makeClosure function captures))
    rw [mapM_of_forall₂ arranged fun _ _ => Capture.Arranged.reads, rereadItems_eq_map,
      List.map_map]
    rfl
  | _ =>
    subst said
    rfl

/-- The operands of an instruction fit where the canonical ones do. They are what the format nests
most deeply, so that each of them is looked at by the lemma of its own level. -/
theorem fits (said : instruction.OperandsArranged operands) :
    Json.fits.membersFit (greatestDepth - 1) operands =
      Json.fits.membersFit (greatestDepth - 1) (reread.rereadMembers instruction.operands) := by
  cases instruction with
  | literal constant =>
    obtain ⟨value, arranged, rfl⟩ := said
    change (value.fits _ && true) = (constant.toJson.reread.fits _ && true)
    rw [arranged.fits]
  | makeClosure function captures =>
    obtain ⟨items, arranged, rfl⟩ := said
    change ((Json.index function).reread.fits _ &&
        (fits.itemsFit (greatestDepth - 2) items && true)) =
      ((Json.index function).reread.fits _ && (fits.itemsFit (greatestDepth - 2)
        (reread.rereadItems (captures.map Capture.toJson)) && true))
    rw [itemsFit_of_forall₂ arranged fun _ _ => Capture.Arranged.fits, rereadItems_eq_map,
      List.map_map]
    rfl
  | _ => rw [said]

/-- However the operands are arranged, the name of the instruction is found. -/
theorem tagged (said : instruction.OperandsArranged operands) :
    fieldOf (("t", .string instruction.tag) :: operands) "t" =
      .ok (some (.string instruction.tag)) := by
  cases instruction with
  | literal constant =>
    obtain ⟨value, _, rfl⟩ := said
    rfl
  | makeClosure function captures =>
    obtain ⟨items, _, rfl⟩ := said
    rfl
  | _ =>
    subst said
    rfl

end OperandsArranged

/-- The operands in their order are operands that say the instruction. -/
theorem operandsArranged_self (instruction : Instruction) :
    instruction.OperandsArranged (reread.rereadMembers instruction.operands) := by
  cases instruction with
  | literal constant => exact ⟨_, constant.arranged_self, rfl⟩
  | makeClosure function captures =>
    refine ⟨_, ?_, rfl⟩
    rw [rereadItems_eq_map, List.map_map]
    exact List.forall₂_map_right_iff.2 (List.forall₂_same.2 fun capture _ => capture.arranged_self)
  | _ => rfl

/-- An instruction is read in full before its name is known, and then by its name. -/
theorem ofJson_of_tagged {tag : String} (tagged : fieldOf members "t" = .ok (some (.string tag))) :
    ofJson (.object members) =
      if fits.membersFit (greatestDepth - 1) members then ofTag tag (.object members)
      else .error .malformed := by
  change (if !fits.membersFit (greatestDepth - 1) members then .error .malformed
    else fieldOf members "t" >>= fun name => required asString name >>= fun name =>
      ofTag name (.object members)) = _
  rw [tagged]
  cases fits.membersFit (greatestDepth - 1) members <;> rfl

/-- An arranged instruction is read as the canonical one. Its reader first looks whether all of it
fits, then asks for the name, and then for the operands that an instruction of that name has. -/
theorem Arranged.reads {value : Json} (arranged : instruction.Arranged value) :
    ofJson value = ofJson instruction.toJson.reread := by
  obtain ⟨said, rearranged⟩ := arranged
  have canonical : instruction.toJson.reread = .object
      (("t", .string instruction.tag) :: reread.rereadMembers instruction.operands) := rfl
  have tagged := (fieldOf_of_rearranged rearranged List.mem_cons_self).trans said.tagged
  have fit := membersFit_of_rearranged rearranged fun _ fit => fit
  have named := ofTag_congr instruction fun name among =>
    fieldOf_of_rearranged rearranged (List.mem_cons_of_mem _ among)
  rw [ofJson_of_tagged tagged, fit, named, said.reads, canonical,
    ofJson_of_tagged instruction.operandsArranged_self.tagged, ← canonical]
  rw [fits.membersFit, fits.membersFit, said.fits]

end Instruction

/-- The canonical form is one of the arrangements. -/
theorem Instruction.arranged_self (instruction : Instruction) :
    instruction.Arranged instruction.toJson.reread :=
  .fields instruction.operandsArranged_self (rearranged_self _ _ _)

/-! ### Functions -/

/-- A field, which may be left out where a missing one stands for its value. -/
def Kept (field : String × Json) (omissible : Prop) (kept : List (String × Json)) : Prop :=
  kept = [field] ∨ omissible ∧ kept = []

/-- A value that says the entry of a function. Parameters and variadicity may be left out where
there are none. -/
inductive FunctionEntry.Arranged (function : FunctionEntry) : Json → Prop
  | fields {parameters variadic members : List (String × Json)}
      (counted : Kept ("params", (Json.index function.parameters).reread) (function.parameters = 0)
        parameters)
      (marked : Kept ("variadic", .boolean function.variadic) (function.variadic = false) variadic)
      (rearranged : Rearranged ["name", "entry_point", "params", "variadic"] (fun _ => True)
        (("name", .string function.name) ::
          ("entry_point", (Json.index function.entryPoint).reread) :: (parameters ++ variadic))
        members) :
      Arranged function (.object members)

/-- What an entry is read as is up to its two indices. -/
theorem FunctionEntry.ofJson_reread (function : FunctionEntry) :
    FunctionEntry.ofJson function.toJson.reread =
      (asIndex (Json.index function.entryPoint).reread >>= fun entryPoint =>
        asIndex (Json.index function.parameters).reread >>= fun parameters =>
          pure ⟨function.name, entryPoint, parameters, function.variadic⟩) := by
  rfl

/-- An arranged function is read as the canonical one, also where parameters or variadicity are left
out: what is taken instead is what they would have said. -/
theorem FunctionEntry.Arranged.reads {function : FunctionEntry} {value : Json}
    (arranged : function.Arranged value) :
    FunctionEntry.ofJson value = FunctionEntry.ofJson function.toJson.reread := by
  have readsBack : (JsonNumber.natural 0).ReadsBack := readsBack_natural (by decide)
  have zero : (Json.index 0).reread = .index 0 := readsBack.reread
  obtain ⟨counted, marked, rearranged⟩ := arranged
  rw [FunctionEntry.ofJson_reread, FunctionEntry.ofJson, fields_of_rearranged rearranged]
  rcases counted with rfl | ⟨none, rfl⟩ <;> rcases marked with rfl | ⟨fixed, rfl⟩
  · rfl
  · rw [fixed]
    rfl
  · rw [none, zero]
    rfl
  · rw [none, zero, fixed]
    rfl

/-- The canonical form is one of the arrangements. -/
theorem FunctionEntry.arranged_self (function : FunctionEntry) :
    function.Arranged function.toJson.reread := by
  exact .fields (.inl rfl) (.inl rfl) (rearranged_self _ _ _)

/-! ### Chunks -/

namespace Chunk

/-- A value that says the chunk. -/
inductive Arranged (chunk : Chunk) : Json → Prop
  | fields {functions code : List Json} {members : List (String × Json)}
      (entries : List.Forall₂ FunctionEntry.Arranged chunk.functions.toList functions)
      (instructions : List.Forall₂ Instruction.Arranged chunk.code.toList code)
      (rearranged : Rearranged ["functions", "code"] (fun _ => True)
        [("functions", .array functions), ("code", .array code)] members) :
      Arranged chunk (.object members)

variable {chunk : Chunk}

/-- Read back from its canonical text, the value of a chunk is the record of its parts read back. -/
theorem toJson_reread (chunk : Chunk) :
    chunk.toJson.reread = .object
      [("functions", .array (chunk.functions.toList.map fun function => function.toJson.reread)),
        ("code", .array (chunk.code.toList.map fun instruction => instruction.toJson.reread))] := by
  have listed : ∀ items : List Json, (Json.array items).reread = .array (items.map Json.reread) :=
    fun items => congrArg Json.array (rereadItems_eq_map items)
  change Json.object [("functions", (Json.array _).reread), ("code", (Json.array _).reread)] = _
  rw [listed, listed, List.map_map, List.map_map]
  rfl

/-- An arranged chunk is read as the canonical one, because its functions and its instructions
are. -/
theorem Arranged.reads {value : Json} (arranged : chunk.Arranged value) :
    ofJson value = ofJson chunk.toJson.reread := by
  obtain ⟨entries, instructions, rearranged⟩ := arranged
  rw [ofJson, fields_of_rearranged rearranged, toJson_reread]
  change (List.mapM FunctionEntry.ofJson _ >>= fun functions =>
      List.mapM Instruction.ofJson _ >>= fun code =>
        pure (⟨functions.toArray, code.toArray⟩ : Chunk)) =
    (List.mapM FunctionEntry.ofJson _ >>= fun functions =>
      List.mapM Instruction.ofJson _ >>= fun code => pure ⟨functions.toArray, code.toArray⟩)
  rw [mapM_of_forall₂ entries fun _ _ => FunctionEntry.Arranged.reads,
    mapM_of_forall₂ instructions fun _ _ => Instruction.Arranged.reads]

/-- The canonical form of a chunk is one of its arrangements. -/
theorem arranged_self (chunk : Chunk) : chunk.Arranged chunk.toJson.reread := by
  rw [toJson_reread]
  refine .fields ?_ ?_ (rearranged_self _ _ _)
  · exact List.forall₂_map_right_iff.2
      (List.forall₂_same.2 fun function _ => function.arranged_self)
  · exact List.forall₂_map_right_iff.2
      (List.forall₂_same.2 fun instruction _ => instruction.arranged_self)

end Chunk

end CoroutineVM
