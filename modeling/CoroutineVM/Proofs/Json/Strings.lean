import CoroutineVM.Json.Token
import CoroutineVM.Json.Writer

/-!
# The spellings of a string

A character may stand for itself in a string, and most have more than one escape as well.
`CharSpelt` lists the forms, and `TextSpelt` puts them one after another. Whatever forms a string is
spelt in, it is read as its characters (`readText_spelt`). What a string is written as is one of its
spellings (`textSpelt_writeChar`).

A character above 16 bits has an escape of two units. A unit alone is never half of a surrogate pair
here, because the code of a character is not a surrogate; this is why the pieces of one character
say what they stand for whatever comes after them (`Names`).
-/

namespace CoroutineVM.Json

/-- A form that a character may have inside a string. -/
inductive CharSpelt : Char → List Char → Prop
  /-- The character itself. -/
  | plain {c : Char} (closing : c ≠ '"') (escaped : c ≠ '\\') (control : ¬ c.toNat < 0x20) :
      CharSpelt c [c]
  /-- An escape of one letter. -/
  | letter {c mark : Char} (names : simpleEscape? mark = some c) : CharSpelt c ['\\', mark]
  /-- Its code as four hexadecimal digits of either case. -/
  | unit {c d₁ d₂ d₃ d₄ : Char} (names : hexUnit? d₁ d₂ d₃ d₄ = some c.toNat) :
      CharSpelt c ['\\', 'u', d₁, d₂, d₃, d₄]
  /-- Its code as a surrogate pair. -/
  | pair {c d₁ d₂ d₃ d₄ e₁ e₂ e₃ e₄ : Char} {high low : Nat}
      (first : hexUnit? d₁ d₂ d₃ d₄ = some high) (second : hexUnit? e₁ e₂ e₃ e₄ = some low)
      (upper : 0xD800 ≤ high ∧ high < 0xDC00) (lower : 0xDC00 ≤ low ∧ low < 0xE000)
      (code : c.toNat = 0x10000 + (high - 0xD800) * 0x400 + (low - 0xDC00)) :
      CharSpelt c ['\\', 'u', d₁, d₂, d₃, d₄, '\\', 'u', e₁, e₂, e₃, e₄]

/-- A form that characters may have inside a string. -/
inductive TextSpelt : List Char → List Char → Prop
  | nil : TextSpelt [] []
  | cons {c : Char} {others form forms : List Char} (first : CharSpelt c form)
      (rest : TextSpelt others forms) : TextSpelt (c :: others) (form ++ forms)

/-- The pieces stand for the character, whatever pieces come after them. -/
def Names (pieces : List Piece) (c : Char) : Prop :=
  ∀ more, joinPieces (pieces ++ more) = (joinPieces more).map (c :: ·)

/-- A piece that is a character stands for it. -/
theorem names_char (c : Char) : Names [.char c] c := fun _ => rfl

/-- The code of a character is not a surrogate, so that a unit with that code is never taken for
half of a pair. -/
theorem names_unit (c : Char) : Names [.unit c.toNat] c := by
  intro more
  have valid : c.toNat < 0xD800 ∨ 0xE000 ≤ c.toNat := by
    rcases c.valid with low | high
    · exact .inl low
    · exact .inr high.1
  have single : ¬ (0xD800 ≤ c.toNat ∧ c.toNat < 0xE000) := by omega
  have high : ¬ (0xD800 ≤ c.toNat ∧ c.toNat < 0xDC00) := by omega
  have named : Char.ofNat c.toNat = c := Char.ofNat_toNat c
  rcases more with _ | ⟨piece, more⟩
  · simp [joinPieces, single, named]
  · cases piece with
    | char d => simp [joinPieces, single, named]
    | unit low =>
      have unpaired : ¬ (0xD800 ≤ c.toNat ∧ c.toNat < 0xDC00 ∧ 0xDC00 ≤ low ∧ low < 0xE000) :=
        fun pair => high ⟨pair.1, pair.2.1⟩
      simp only [List.cons_append, List.nil_append, joinPieces, unpaired, single, named, if_false]

/-- Two units that are halves of a pair stand for the character of both. -/
theorem names_pair {c : Char} {high low : Nat} (upper : 0xD800 ≤ high ∧ high < 0xDC00)
    (lower : 0xDC00 ≤ low ∧ low < 0xE000)
    (code : c.toNat = 0x10000 + (high - 0xD800) * 0x400 + (low - 0xDC00)) :
    Names [.unit high, .unit low] c := by
  intro more
  have named : Char.ofNat c.toNat = c := Char.ofNat_toNat c
  simp only [List.cons_append, List.nil_append, joinPieces, upper.1, upper.2, lower.1, lower.2,
    and_self, if_true, ← code, named]

/-- What reading some pieces adds to the pieces after them. -/
def prepend (pieces : List Piece) (read : List Piece × List Char) : List Piece × List Char :=
  (pieces ++ read.1, read.2)

/-- A character that stands for itself is read as itself. -/
theorem readPieces_plain {c : Char} (closing : c ≠ '"') (escaped : c ≠ '\\')
    (control : ¬ c.toNat < 0x20) (more : List Char) :
    readPieces (c :: more) = (readPieces more).map (prepend [.char c]) := by
  simp [readPieces, escaped, control]
  rfl

/-- The letter of a unit is not the letter of a character. -/
theorem readPieces_letter {c mark : Char} (names : simpleEscape? mark = some c)
    (more : List Char) :
    readPieces ('\\' :: mark :: more) = (readPieces more).map (prepend [.char c]) := by
  have other : mark ≠ 'u' := by
    rintro rfl
    cases names
  rw [readPieces.eq_6 mark more (fun _ _ _ _ _ same _ => other same) other, names]
  rfl

/-- An escape of four digits is read as a unit. -/
theorem readPieces_unit {d₁ d₂ d₃ d₄ : Char} {code : Nat}
    (names : hexUnit? d₁ d₂ d₃ d₄ = some code) (more : List Char) :
    readPieces ('\\' :: 'u' :: d₁ :: d₂ :: d₃ :: d₄ :: more) =
      (readPieces more).map (prepend [.unit code]) := by
  rw [readPieces, names]
  rfl

/-- Every form of a character is read as pieces that stand for it, whatever comes after: itself, a
short escape, one unit or two. -/
theorem CharSpelt.reads {c : Char} {form : List Char} (spelt : CharSpelt c form) :
    ∃ pieces, Names pieces c ∧
      ∀ more, readPieces (form ++ more) = (readPieces more).map (prepend pieces) := by
  cases spelt with
  | plain closing escaped control =>
    exact ⟨_, names_char c, readPieces_plain closing escaped control⟩
  | letter names => exact ⟨_, names_char c, readPieces_letter names⟩
  | unit names => exact ⟨_, names_unit c, readPieces_unit names⟩
  | pair first second upper lower code =>
    refine ⟨_, names_pair upper lower code, fun more => ?_⟩
    simp only [List.cons_append, List.nil_append]
    rw [readPieces_unit first, readPieces_unit second]
    cases readPieces more <;> rfl

/-- However a string is spelt, its characters come back, and reading stops at its closing quote. -/
theorem readPieces_spelt {characters forms : List Char} (spelt : TextSpelt characters forms)
    (rest : List Char) :
    ∃ pieces, readPieces (forms ++ '"' :: rest) = .ok (pieces, rest) ∧
      joinPieces pieces = some characters := by
  induction spelt with
  | nil => exact ⟨[], rfl, rfl⟩
  | cons first _ inductionHypothesis =>
    obtain ⟨later, read, joined⟩ := inductionHypothesis
    obtain ⟨pieces, names, reads⟩ := first.reads
    refine ⟨pieces ++ later, ?_, ?_⟩
    · rw [List.append_assoc, reads, read]
      rfl
    · rw [names, joined]
      rfl

/-- A string is read as its characters, whichever of their forms it is spelt in. -/
theorem readText_spelt {characters forms : List Char} (spelt : TextSpelt characters forms)
    (rest : List Char) :
    readText (forms ++ '"' :: rest) = .ok (some (String.ofList characters), rest) := by
  obtain ⟨pieces, read, joined⟩ := readPieces_spelt spelt rest
  simp [readText, read, joined, Except.map]

/-- The four digits of an escaped control character name its own code. -/
theorem hexUnit_control : ∀ code < 0x20,
    hexUnit? '0' '0' (hexChar (code / 16)) (hexChar code) = some code := by
  decide

/-- A character is written in one of its forms: by a short escape if it has one, by its unit if it
is a control character, and as itself otherwise. -/
theorem charSpelt_writeChar (c : Char) : CharSpelt c (writeChar c) := by
  by_cases lettered : c ∈ ['"', '\\', '\x08', '\t', '\n', '\x0c', '\r']
  · simp only [List.mem_cons, List.not_mem_nil, or_false] at lettered
    rcases lettered with rfl | rfl | rfl | rfl | rfl | rfl | rfl <;> exact .letter rfl
  · have written : writeChar c = if c.toNat < 0x20 then
        ['\\', 'u', '0', '0', hexChar (c.toNat / 16), hexChar c.toNat] else [c] := by
      simp_all [writeChar]
    by_cases control : c.toNat < 0x20
    · rw [written, if_pos control]
      exact .unit (hexUnit_control _ control)
    · rw [written, if_neg control]
      exact .plain (fun same => lettered (by simp [same])) (fun same => lettered (by simp [same]))
        control

/-- A string is written in one of its forms. -/
theorem textSpelt_writeChar (characters : List Char) :
    TextSpelt characters (characters.flatMap writeChar) := by
  induction characters with
  | nil => exact .nil
  | cons c characters inductionHypothesis =>
    rw [List.flatMap_cons]
    exact .cons (charSpelt_writeChar c) inductionHypothesis

end CoroutineVM.Json
