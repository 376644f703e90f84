import CoroutineVM.Chunk.Validity
import Mathlib.Data.List.Basic

/-!
# Which chunks are accepted, and which fault is named

A chunk is well formed when it has a function, every function begins inside the code, every jump
stays inside it and every closure is made of a function of the table. The check accepts these chunks
and no others. Of any other chunk it names one fault, the first in a fixed order: that there is no
function at all, then the functions by their numbers, then the instructions by their places
(`FirstFault`).

Both scans of the check stop at the first thing they find, so both come to one fact about such a
search, `findSome?_first`. Of the instructions the place matters as well, since the fault names it;
`codeFault?_eq_findSome?` puts the places beside them.
-/

namespace CoroutineVM.Chunk

/-- What the code of a chunk relies on. -/
structure WellFormed (chunk : Chunk) : Prop where
  functions : 0 < chunk.functions.size
  entries : ∀ function ∈ chunk.functions, function.entryPoint < chunk.code.size
  jumps : ∀ target, .jump target ∈ chunk.code → target < chunk.code.size
  branches : ∀ target, .jumpIfFalse target ∈ chunk.code → target < chunk.code.size
  closures : ∀ function captures, .makeClosure function captures ∈ chunk.code →
    function < chunk.functions.size

/-- The instruction is faulty at this place of the chunk, and this is its fault. -/
inductive Errs (chunk : Chunk) (place : Nat) : Instruction → LoadError → Prop
  | jump {target : Nat} (outside : chunk.code.size ≤ target) :
      Errs chunk place (.jump target) (.jumpOutOfRange place target chunk.code.size)
  | branch {target : Nat} (outside : chunk.code.size ≤ target) :
      Errs chunk place (.jumpIfFalse target) (.jumpOutOfRange place target chunk.code.size)
  | closure {function : Nat} {captures : List Capture}
      (undefined : chunk.functions.size ≤ function) :
      Errs chunk place (.makeClosure function captures) (.undefinedFunction place function)

/-- The fault that is to be named of a chunk: nothing that comes before it in the order of the check
is faulty. -/
inductive FirstFault (chunk : Chunk) : LoadError → Prop
  | noFunctions (none : chunk.functions.size = 0) : FirstFault chunk .noFunctions
  | entryPoint {index : Nat} {function : FunctionEntry}
      (there : chunk.functions[index]? = some function)
      (outside : chunk.code.size ≤ function.entryPoint)
      (first : ∀ earlier < index, ∀ other, chunk.functions[earlier]? = some other →
        other.entryPoint < chunk.code.size) :
      FirstFault chunk (.entryPointOutOfRange function.name function.entryPoint chunk.code.size)
  | instruction {place : Nat} {instruction : Instruction} {fault : LoadError}
      (functions : 0 < chunk.functions.size)
      (entries : ∀ function ∈ chunk.functions, function.entryPoint < chunk.code.size)
      (there : chunk.code[place]? = some instruction)
      (errs : chunk.Errs place instruction fault)
      (first : ∀ earlier < place, ∀ other, chunk.code[earlier]? = some other →
        ∀ fault, ¬ chunk.Errs earlier other fault) :
      FirstFault chunk fault

/-! ### Searching -/

/-- A search finds the first thing that gives something, and nothing before it does. Both scans of
the check are such searches. -/
theorem findSome?_first {α β : Type} {search : α → Option β} {items : List α} {found : β} :
    items.findSome? search = some found ↔
      ∃ (index : Nat) (item : α), items[index]? = some item ∧ search item = some found ∧
        ∀ earlier < index, ∀ other, items[earlier]? = some other → search other = none := by
  rw [List.findSome?_eq_some_iff]
  constructor
  · rintro ⟨before, item, after, rfl, gives, nothing⟩
    refine ⟨before.length, item, by simp, gives, fun earlier less other there => ?_⟩
    rw [List.getElem?_append_left less] at there
    exact nothing other (List.mem_of_getElem? there)
  · rintro ⟨index, item, there, gives, nothing⟩
    obtain ⟨inside, rfl⟩ := List.getElem?_eq_some_iff.1 there
    refine ⟨items.take index, items[index], items.drop (index + 1), ?_, gives,
      fun other member => ?_⟩
    · rw [← List.drop_eq_getElem_cons inside, List.take_append_drop]
    · obtain ⟨earlier, less, rfl⟩ := List.mem_take_iff_getElem.1 member
      exact nothing earlier (by omega) _ (List.getElem?_eq_getElem (by omega))

/-- The search through the code looks at each instruction with its place. -/
theorem codeFault?_eq_findSome? (length functions first : Nat) (code : List Instruction) :
    codeFault? length functions first code =
      (code.zipIdx first).findSome? fun entry =>
        instructionFault? length functions entry.2 entry.1 := by
  induction code generalizing first with
  | nil => rfl
  | cons instruction rest inductionHypothesis =>
    rw [codeFault?, inductionHypothesis, List.zipIdx_cons, List.findSome?_cons]
    cases instructionFault? length functions first instruction <;> rfl

/-! ### One function, one instruction -/

variable {chunk : Chunk} {place length : Nat} {fault : LoadError} {function : FunctionEntry}
  {instruction : Instruction}

/-- Nothing is found wrong with a function that begins inside the code. -/
theorem functionFault?_eq_none_iff :
    functionFault? length function = none ↔ function.entryPoint < length := by
  rw [functionFault?]
  by_cases outside : length ≤ function.entryPoint <;> simp [outside, Nat.not_le.1, Nat.not_lt.2]

/-- What is found wrong with a function is that it begins outside, and it is told by its name. -/
theorem functionFault?_eq_some_iff :
    functionFault? length function = some fault ↔ length ≤ function.entryPoint ∧
      .entryPointOutOfRange function.name function.entryPoint length = fault := by
  rw [functionFault?]
  by_cases outside : length ≤ function.entryPoint <;> simp [outside]

/-- What is found wrong with an instruction is what is wrong with it: each of the three kinds that
can err does so in its own way, and the others never do. -/
theorem instructionFault?_eq_some_iff :
    instructionFault? chunk.code.size chunk.functions.size place instruction = some fault ↔
      chunk.Errs place instruction fault := by
  constructor
  · intro found
    cases instruction with
    | jump target | jumpIfFalse target | makeClosure function captures =>
      simp only [instructionFault?] at found
      split at found <;> cases found
      constructor
      assumption
    | _ => cases found
  · intro errs
    cases errs with
    | jump outside | branch outside | closure outside => exact if_pos outside

/-- Nothing is found wrong with an instruction that does not err. -/
theorem instructionFault?_eq_none_iff :
    instructionFault? chunk.code.size chunk.functions.size place instruction = none ↔
      ∀ fault, ¬ chunk.Errs place instruction fault := by
  simp only [Option.eq_none_iff_forall_ne_some, ne_eq, instructionFault?_eq_some_iff]

/-! ### The whole chunk -/

/-- The first of the functions that begin outside of the code. -/
theorem functionFault_first :
    chunk.functions.toList.findSome? (functionFault? chunk.code.size) = some fault ↔
      ∃ (index : Nat) (function : FunctionEntry), chunk.functions[index]? = some function ∧
        (chunk.code.size ≤ function.entryPoint ∧
          .entryPointOutOfRange function.name function.entryPoint chunk.code.size = fault) ∧
        ∀ earlier < index, ∀ other, chunk.functions[earlier]? = some other →
          other.entryPoint < chunk.code.size := by
  simp only [findSome?_first, Array.getElem?_toList, functionFault?_eq_some_iff,
    functionFault?_eq_none_iff]

/-- The scan of the functions finds nothing exactly if all of them begin inside the code. -/
theorem functionFault_none :
    chunk.functions.toList.findSome? (functionFault? chunk.code.size) = none ↔
      ∀ function ∈ chunk.functions, function.entryPoint < chunk.code.size := by
  simp only [List.findSome?_eq_none_iff, Array.mem_toList_iff, functionFault?_eq_none_iff]

/-- The first of the faulty instructions is found, with its place, which the fault names. -/
theorem codeFault_first :
    codeFault? chunk.code.size chunk.functions.size 0 chunk.code.toList = some fault ↔
      ∃ (place : Nat) (instruction : Instruction), chunk.code[place]? = some instruction ∧
        chunk.Errs place instruction fault ∧
        ∀ earlier < place, ∀ other, chunk.code[earlier]? = some other →
          ∀ fault, ¬ chunk.Errs earlier other fault := by
  simp only [codeFault?_eq_findSome?, findSome?_first, List.getElem?_zipIdx, Array.getElem?_toList,
    Option.map_eq_some_iff, Nat.zero_add, Prod.exists, Prod.forall, Prod.mk.injEq,
    instructionFault?_eq_some_iff, instructionFault?_eq_none_iff]
  -- What is left is that an instruction stands beside its own place.
  constructor
  · rintro ⟨place, instruction, _, ⟨_, there, rfl, rfl⟩, errs, first⟩
    exact ⟨place, _, there, errs, fun earlier less other found =>
      first earlier less other earlier ⟨other, found, rfl, rfl⟩⟩
  · rintro ⟨place, instruction, there, errs, first⟩
    refine ⟨place, instruction, place, ⟨instruction, there, rfl, rfl⟩, errs, ?_⟩
    rintro earlier less other _ ⟨_, found, rfl, rfl⟩
    exact first earlier less _ found

/-- The scan of the code finds nothing exactly if no instruction errs at its place. -/
theorem codeFault_none :
    codeFault? chunk.code.size chunk.functions.size 0 chunk.code.toList = none ↔
      ∀ (place : Nat) instruction, chunk.code[place]? = some instruction →
        ∀ fault, ¬ chunk.Errs place instruction fault := by
  simp only [codeFault?_eq_findSome?, List.findSome?_eq_none_iff, Prod.forall,
    List.mk_mem_zipIdx_iff_getElem?, Array.getElem?_toList, instructionFault?_eq_none_iff]
  exact forall_comm

/-- The chunk is well formed when neither of the scans finds anything. Each part of being well
formed is what one kind of fault excludes. -/
theorem wellFormed_iff : chunk.WellFormed ↔ 0 < chunk.functions.size ∧
    (∀ function ∈ chunk.functions, function.entryPoint < chunk.code.size) ∧
    ∀ (place : Nat) instruction, chunk.code[place]? = some instruction →
      ∀ fault, ¬ chunk.Errs place instruction fault := by
  constructor
  · intro wellFormed
    refine ⟨wellFormed.functions, wellFormed.entries, fun place instruction there fault errs => ?_⟩
    have member := Array.mem_of_getElem? there
    cases errs with
    | jump outside => exact Nat.not_le_of_lt (wellFormed.jumps _ member) outside
    | branch outside => exact Nat.not_le_of_lt (wellFormed.branches _ member) outside
    | closure undefined => exact Nat.not_le_of_lt (wellFormed.closures _ _ member) undefined
  · rintro ⟨functions, entries, code⟩
    refine ⟨functions, entries, fun target member => ?_, fun target member => ?_,
      fun function captures member => ?_⟩
    all_goals
      obtain ⟨place, there⟩ := Array.mem_iff_getElem?.1 member
      by_contra outside
    · exact code place _ there _ (.jump (Nat.le_of_not_lt outside))
    · exact code place _ there _ (.branch (Nat.le_of_not_lt outside))
    · exact code place _ there _ (.closure (Nat.le_of_not_lt outside))

/-- That there is no function comes before everything else. -/
theorem fault?_of_empty (none : chunk.functions.size = 0) : chunk.fault? = some .noFunctions :=
  if_pos (Array.isEmpty_iff_size_eq_zero.2 none)

/-- Where there are functions their faults come before those of the code. -/
theorem fault?_of_functions (functions : 0 < chunk.functions.size) : chunk.fault? =
    (chunk.functions.toList.findSome? (functionFault? chunk.code.size)).or
      (codeFault? chunk.code.size chunk.functions.size 0 chunk.code.toList) :=
  if_neg fun none => Nat.ne_of_gt functions (Array.isEmpty_iff_size_eq_zero.1 none)

/-- A chunk without a fault is a well-formed one. -/
theorem fault?_eq_none_iff : chunk.fault? = none ↔ chunk.WellFormed := by
  rw [wellFormed_iff, ← functionFault_none, ← codeFault_none, ← Option.or_eq_none_iff]
  rcases Nat.eq_zero_or_pos chunk.functions.size with none | functions
  · simp [fault?_of_empty none, none]
  · simp only [fault?_of_functions functions, functions, true_and]

/-- The order of the two scans is the order in which the fault comes first: the code is scanned only
if all functions begin inside of it. -/
theorem fault?_eq_some_iff : chunk.fault? = some fault ↔ chunk.FirstFault fault := by
  rcases Nat.eq_zero_or_pos chunk.functions.size with none | functions
  · rw [fault?_of_empty none]
    constructor
    · rintro ⟨⟩
      exact .noFunctions none
    · intro first
      cases first with
      | noFunctions => rfl
      | entryPoint there =>
        obtain ⟨inside, _⟩ := Array.getElem?_eq_some_iff.1 there
        omega
      | instruction functions => exact absurd none (Nat.ne_of_gt functions)
  · rw [fault?_of_functions functions, Option.or_eq_some_iff, functionFault_first, codeFault_first,
      functionFault_none]
    constructor
    · rintro (⟨index, function, there, ⟨outside, rfl⟩, first⟩ |
        ⟨entries, place, instruction, there, errs, first⟩)
      · exact .entryPoint there outside first
      · exact .instruction functions entries there errs first
    · intro first
      cases first with
      | noFunctions none => exact absurd none (Nat.ne_of_gt functions)
      | entryPoint there outside first => exact .inl ⟨_, _, there, ⟨outside, rfl⟩, first⟩
      | instruction _ entries there errs first => exact .inr ⟨entries, _, _, there, errs, first⟩

/-- A chunk is accepted exactly if it is well formed. -/
theorem validate_eq_ok_iff : chunk.validate = .ok () ↔ chunk.WellFormed := by
  rw [← fault?_eq_none_iff, validate]
  cases chunk.fault? <;> simp

/-- A chunk is refused exactly for its first fault. -/
theorem validate_eq_error_iff : chunk.validate = .error fault ↔ chunk.FirstFault fault := by
  rw [← fault?_eq_some_iff, validate]
  cases chunk.fault? <;> simp

/-- The check accepts exactly the well-formed chunks and names the first fault of every other one.
Nothing that is wrong further on changes the fault that is named, and for one place there is one
fault at most, so that the first one is a single fault. -/
theorem validate_names_first_fault (chunk : Chunk) :
    (chunk.validate = .ok () ↔ chunk.WellFormed) ∧
      ∀ fault, chunk.validate = .error fault ↔ chunk.FirstFault fault :=
  ⟨validate_eq_ok_iff, fun _ => validate_eq_error_iff⟩

end CoroutineVM.Chunk
