import CoroutineVM.Chunk.Fingerprint
import CoroutineVM.Chunk.Reading
import CoroutineVM.Proofs.Json.Reading

/-!
# A chunk is read back from its canonical text

The way from a chunk to its text and back has two halves. From the chunk to a JSON value and back
nothing is asked of the chunk: every instruction, constant and capture is read as what it was
written from (`Chunk.ofJson_toJson`), whatever its operands are. Only the text of the value asks
something: it holds the natural numbers of 64 bits, and the doubles whose text reads back.

That a double reads back is taken from outside, for each of the chunk's own constants
(`Chunk.NumbersReadBack`). Asked of every double at once it would be too much, as
`Json.exists_not_readsBack` shows.
-/

namespace CoroutineVM

open Json

/-! ### From values to parts of a chunk -/

/-- A list is read item by item. -/
theorem mapM_ofJson {α : Type} {toJson : α → Json} {ofJson : Json → Except Fault α}
    (back : ∀ part, ofJson (toJson part) = .ok part) (parts : List α) :
    (parts.map toJson).mapM ofJson = .ok parts := by
  induction parts with
  | nil => rfl
  | cons part parts inductionHypothesis =>
    rw [List.map_cons, List.mapM_cons, back, inductionHypothesis]
    rfl

/-- A constant is read as what it was written from, each kind by its own name. -/
theorem Constant.ofJson_toJson (constant : Constant) : ofJson constant.toJson = .ok constant := by
  cases constant <;> rfl

/-- So is a capture. -/
theorem Capture.ofJson_toJson (capture : Capture) : ofJson capture.toJson = .ok capture := by
  cases capture <;> rfl

/-- So is a function, whose record has all four fields. -/
theorem FunctionEntry.ofJson_toJson (function : FunctionEntry) :
    ofJson function.toJson = .ok function := by
  rfl

namespace Instruction

/-- Captures are the only part of an instruction that is not of a fixed size, and none of them is
nested deeply. -/
theorem captures_fit (captures : List Capture) :
    fits.itemsFit (greatestDepth - 2) (captures.map Capture.toJson) = true := by
  induction captures with
  | nil => rfl
  | cons capture captures inductionHypothesis =>
    rw [List.map_cons, fits.itemsFit, inductionHypothesis]
    cases capture <;> rfl

/-- No instruction is nested deeper than its reader allows. -/
theorem fits_toJson (instruction : Instruction) : instruction.toJson.fits greatestDepth = true := by
  cases instruction with
  | literal value => cases value <;> rfl
  | makeClosure function captures =>
    change (fits.itemsFit (greatestDepth - 2) (captures.map Capture.toJson) && true) = true
    rw [captures_fit]
    rfl
  | _ => rfl

/-- The name of an instruction leads to the reader of its operands, which finds each of them under
the name that it was written under. -/
theorem ofTag_toJson (instruction : Instruction) :
    ofTag instruction.tag instruction.toJson = .ok instruction := by
  cases instruction with
  | literal value =>
    change (Constant.ofJson value.toJson >>= fun value => pure (literal value)) = _
    rw [Constant.ofJson_toJson]
    rfl
  | makeClosure function captures =>
    change ((captures.map Capture.toJson).mapM Capture.ofJson >>= fun captures =>
      pure (makeClosure function captures)) = _
    rw [mapM_ofJson Capture.ofJson_toJson]
    rfl
  | _ => rfl

/-- So is an instruction. Its name is found in front of its operands, and its value is never nested
too deeply to be looked at. -/
theorem ofJson_toJson (instruction : Instruction) :
    ofJson instruction.toJson = .ok instruction := by
  have tagged : fieldOf (("t", .string instruction.tag) :: instruction.operands) "t" =
      .ok (some (.string instruction.tag)) := by
    cases instruction <;> rfl
  change (if !instruction.toJson.fits greatestDepth then .error .malformed
    else fieldOf (("t", .string instruction.tag) :: instruction.operands) "t" >>= fun name =>
      required asString name >>= fun name => ofTag name instruction.toJson) = _
  rw [fits_toJson, tagged]
  exact instruction.ofTag_toJson

end Instruction

/-- A chunk is read as what it was written from, with all of its functions and instructions in
order. -/
theorem Chunk.ofJson_toJson (chunk : Chunk) : ofJson chunk.toJson = .ok chunk := by
  change ((chunk.functions.toList.map FunctionEntry.toJson).mapM FunctionEntry.ofJson >>=
    fun functions => (chunk.code.toList.map Instruction.toJson).mapM Instruction.ofJson >>=
      fun code => pure (⟨functions.toArray, code.toArray⟩ : Chunk)) = _
  rw [mapM_ofJson FunctionEntry.ofJson_toJson, mapM_ofJson Instruction.ofJson_toJson]
  rfl

/-! ### What the text can hold -/

/-- The index that a capture names. -/
def Capture.index : Capture → Nat
  | .copyLocal index | .shareUpvalue index => index

/-- The natural numbers that an instruction holds. -/
def Instruction.indices : Instruction → List Nat
  | .loadLocal index | .storeLocal index | .loadUpvalue index | .storeUpvalue index => [index]
  | .makeClosure function captures => function :: captures.map Capture.index
  | .call count | .resumeCoroutine count | .ret count | .yield count | .tuple count => [count]
  | .jump target | .jumpIfFalse target => [target]
  | _ => []

/-- The number that an instruction holds as a constant. -/
def Instruction.number? : Instruction → Option Float
  | .literal (.number value) => some value
  | _ => none

namespace Chunk

/-- The natural numbers that a chunk holds. -/
def indices (chunk : Chunk) : List Nat :=
  chunk.functions.toList.flatMap (fun function => [function.entryPoint, function.parameters]) ++
    chunk.code.toList.flatMap Instruction.indices

/-- The number constants of a chunk. -/
def numbers (chunk : Chunk) : List Float := chunk.code.toList.filterMap Instruction.number?

/-- Whether chunk text has a form for every part of the chunk: its natural numbers have 64 bits, and
its number constants are finite. Of names and strings, which are made of Unicode characters,
nothing has to be asked. -/
structure Representable (chunk : Chunk) : Prop where
  indices : ∀ index ∈ chunk.indices, index ≤ Number.greatestNatural
  numbers : ∀ value ∈ chunk.numbers, value.isFinite = true

/-- The finite number constants of the chunk survive being written and read. -/
def NumbersReadBack (chunk : Chunk) : Prop :=
  ∀ value ∈ chunk.numbers, value.isFinite = true → (JsonNumber.real value).ReadsBack

instance (chunk : Chunk) : Decidable chunk.Representable :=
  decidable_of_iff ((∀ index ∈ chunk.indices, index ≤ Number.greatestNatural) ∧
      ∀ value ∈ chunk.numbers, value.isFinite = true)
    ⟨fun both => ⟨both.1, both.2⟩, fun both => ⟨both.indices, both.numbers⟩⟩

instance (chunk : Chunk) : Decidable chunk.NumbersReadBack :=
  inferInstanceAs (Decidable (∀ value ∈ chunk.numbers,
    value.isFinite = true → (JsonNumber.real value).ReadsBack))

end Chunk

/-- A natural number can be written if it fits into 64 bits. -/
theorem writable_index {index : Nat} (small : index ≤ Number.greatestNatural) :
    (Json.index index).Writable :=
  .number (readsBack_natural small)

/-- An alternative can be written if its content can. -/
theorem writable_alternative {content : Json} (name : String) (writable : content.Writable) :
    (Json.alternative name content).Writable := by
  refine .object fun member among => ?_
  simp only [List.mem_cons, List.not_mem_nil, or_false] at among
  rcases among with rfl | rfl
  · exact .string name
  · exact writable

/-- Only a constant that is a number asks something: that the text of the number reads back. -/
theorem Constant.writable {constant : Constant}
    (finite : ∀ value, constant = .number value → (JsonNumber.real value).ReadsBack) :
    constant.toJson.Writable := by
  cases constant with
  | nil => exact .object (by simp [Writable.string])
  | boolean value => exact writable_alternative _ (.boolean value)
  | number value => exact writable_alternative _ (.number (finite value rfl))
  | string value => exact writable_alternative _ (.string value)

/-- A capture can be written if its index can. -/
theorem Capture.writable {capture : Capture} (small : capture.index ≤ Number.greatestNatural) :
    capture.toJson.Writable := by
  cases capture <;> exact writable_alternative _ (writable_index small)

/-- An instruction whose natural numbers have 64 bits and whose number constant reads back. The
operands are of four kinds: a constant, a name, a function with its captures, and an index. -/
theorem Instruction.writable {instruction : Instruction}
    (small : ∀ index ∈ instruction.indices, index ≤ Number.greatestNatural)
    (readBack : ∀ value, instruction.number? = some value → (JsonNumber.real value).ReadsBack) :
    instruction.toJson.Writable := by
  refine .object fun member among => ?_
  rcases List.mem_cons.1 among with rfl | operand
  · exact .string _
  · cases instruction with
    | literal value =>
      obtain rfl := List.mem_singleton.1 operand
      exact Constant.writable fun number same => readBack number (same ▸ rfl)
    | loadGlobal name | storeGlobal name =>
      obtain rfl := List.mem_singleton.1 operand
      exact .string name
    | makeClosure function captures =>
      simp only [operands, List.mem_cons, List.not_mem_nil, or_false] at operand
      rcases operand with rfl | rfl
      · exact writable_index (small function List.mem_cons_self)
      · refine .array fun item among => ?_
        obtain ⟨capture, held, rfl⟩ := List.mem_map.1 among
        exact Capture.writable (small _ (List.mem_cons_of_mem _ (List.mem_map_of_mem held)))
    | loadLocal index | storeLocal index | loadUpvalue index | storeUpvalue index | call index
    | resumeCoroutine index | ret index | yield index | tuple index | jump index
    | jumpIfFalse index =>
      obtain rfl := List.mem_singleton.1 operand
      exact writable_index (small index List.mem_cons_self)
    | _ => cases operand

/-- A function can be written if its two numbers can. -/
theorem FunctionEntry.writable {function : FunctionEntry}
    (begins : function.entryPoint ≤ Number.greatestNatural)
    (receives : function.parameters ≤ Number.greatestNatural) : function.toJson.Writable := by
  refine .object fun member among => ?_
  simp only [List.mem_cons, List.not_mem_nil, or_false] at among
  rcases among with rfl | rfl | rfl | rfl
  · exact .string function.name
  · exact writable_index begins
  · exact writable_index receives
  · exact .boolean function.variadic

namespace Chunk

/-- A chunk can be written if its numbers can: the natural ones have to fit and the doubles have to
read back. -/
theorem writable {chunk : Chunk} (representable : chunk.Representable)
    (readBack : chunk.NumbersReadBack) : chunk.toJson.Writable := by
  have small := representable.indices
  refine .object fun member among => ?_
  simp only [List.mem_cons, List.not_mem_nil, or_false] at among
  rcases among with rfl | rfl
  · refine .array fun item among => ?_
    obtain ⟨function, listed, rfl⟩ := List.mem_map.1 among
    have held : ∀ index ∈ [function.entryPoint, function.parameters],
        index ≤ Number.greatestNatural := fun index member =>
      small index (List.mem_append_left _ (List.mem_flatMap.2 ⟨function, listed, member⟩))
    exact FunctionEntry.writable (held _ (by simp)) (held _ (by simp))
  · refine .array fun item among => ?_
    obtain ⟨instruction, listed, rfl⟩ := List.mem_map.1 among
    refine Instruction.writable (fun index member => ?_) fun value constant => ?_
    · exact small index (List.mem_append_right _ (List.mem_flatMap.2 ⟨instruction, listed, member⟩))
    · have number : value ∈ chunk.numbers := List.mem_filterMap.2 ⟨instruction, listed, constant⟩
      exact readBack value number (representable.numbers value number)

/-- The canonical text of the chunk is read as the chunk. -/
theorem parse_canonicalText {chunk : Chunk} (representable : chunk.Representable)
    (readBack : chunk.NumbersReadBack) : parse chunk.canonicalText = .ok chunk := by
  have read : (do ofJson (← Json.read chunk.canonicalText) : Except Fault Chunk) = .ok chunk := by
    rw [canonicalText, read_render, (writable representable readBack).reread]
    exact ofJson_toJson chunk
  rw [parse, read]

/-- Loading the canonical text of a chunk gives the verdict on the chunk. -/
theorem load_canonicalText {chunk : Chunk} (representable : chunk.Representable)
    (readBack : chunk.NumbersReadBack) :
    load chunk.canonicalText = chunk.validate.map fun _ => chunk := by
  rw [load, parse_canonicalText representable readBack]
  change (chunk.validate >>= fun _ => pure chunk) = _
  cases chunk.validate <;> rfl

/-- What the canonical text of a chunk keeps of it: everything. -/
structure RoundTrips (chunk : Chunk) : Prop where
  /-- The text is read as the chunk itself. -/
  parsed : parse chunk.canonicalText = .ok chunk
  /-- Loading the text gives the verdict on the chunk. -/
  judged : load chunk.canonicalText = chunk.validate.map fun _ => chunk
  /-- Writing what has been read gives the same text. -/
  rewritten : ∀ reread, parse chunk.canonicalText = .ok reread →
    reread.validate = chunk.validate ∧ reread.canonicalText = chunk.canonicalText
  /-- No other chunk has the bytes that are digested for this one. -/
  alone : ∀ other : Chunk, other.Representable → other.NumbersReadBack →
    other.canonicalText.toUTF8 = chunk.canonicalText.toUTF8 → other = chunk

/-- The chunk format loses nothing, be the chunk fit to be run or not. It is assumed of the doubles
in the chunk that they read back; the indices do because they have 64 bits. That two chunks never
have the same text follows, since one of them would be read back as the other one. -/
theorem canonical_text_round_trips (chunk : Chunk) (representable : chunk.Representable)
    (readBack : chunk.NumbersReadBack) : chunk.RoundTrips := by
  have parsed := parse_canonicalText representable readBack
  refine ⟨parsed, load_canonicalText representable readBack, ?_, ?_⟩
  · intro reread read
    obtain rfl : chunk = reread := Except.ok.inj (parsed.symm.trans read)
    exact ⟨rfl, rfl⟩
  · intro other otherRepresentable otherReadBack sameBytes
    have sameText : other.canonicalText = chunk.canonicalText := String.toByteArray_inj.1 sameBytes
    have parsedOther := parse_canonicalText otherRepresentable otherReadBack
    rw [sameText] at parsedOther
    exact Except.ok.inj (parsedOther.symm.trans parsed)

/-- A chunk that is not fit to be run, with the widest index, a negative zero, and characters that
are written in each of the four ways. -/
def wideChunk : Chunk where
  functions := #[⟨"main", 0, 0, true⟩, ⟨"größe\n", 18446744073709551615, 2, false⟩]
  code := #[.literal (.number 1.5), .literal (.number (-0.0)), .literal .nil,
    .literal (.string "\"\x01\\ 😀"),
    .makeClosure 1 [.copyLocal 0, .shareUpvalue 18446744073709551615], .jump 9, .currentCoroutine]

/-- The chunk above makes the round trip although it would not be accepted. -/
theorem wideChunk_round_trips :
    wideChunk.Representable ∧ wideChunk.NumbersReadBack ∧ wideChunk.fault?.isSome = true ∧
      wideChunk.RoundTrips := by
  have representable : wideChunk.Representable := by decide +kernel
  have readBack : wideChunk.NumbersReadBack := by decide +kernel
  exact ⟨representable, readBack, by decide +kernel,
    canonical_text_round_trips wideChunk representable readBack⟩

end Chunk

end CoroutineVM
