import CoroutineVM.Json.Token
import CoroutineVM.Json.Writer
import Mathlib.Data.List.TakeDrop
import Mathlib.Data.List.TakeWhile

/-!
# Numbers in a text read back as they were written

A number has no closing mark, so its reader takes as much of the text as it can. Whether a number
reads back therefore depends on what follows it: `EndsNumber` says that nothing which follows could
belong to a number, and `readNumber_append` that under it the rest of the text is not touched. In a
written value a number is followed by a comma, a closing bracket or nothing, so that it is enough to
know of a number that it reads back from its own text (`JsonNumber.ReadsBack`). Inside a number its
parts end where no digit follows (`EndsDigits`), which is how a numeral is read part by part
(`readUnsigned_of_whole`).

Every natural number of 64 bits does (`readsBack_natural`). Not every double does
(`exists_not_readsBack`): the reader keeps the digits that fit 64 bits and scales once, which may
miss the last bit. So of doubles it is asked one by one.
-/

namespace CoroutineVM

namespace Json

open Number

/-- The text goes on with nothing that could belong to a number before it. -/
def EndsNumber (rest : List Char) : Prop :=
  ∀ c ∈ rest.head?, c.isDigit = false ∧ c ≠ '.' ∧ c ≠ 'e' ∧ c ≠ 'E'

variable {text after rest digits : List Char}

/-- What comes after a number begins with none of the characters that a numeral goes on with. -/
theorem EndsNumber.cons {c : Char} (ends : EndsNumber (c :: rest)) :
    c.isDigit = false ∧ c ≠ '.' ∧ c ≠ 'e' ∧ c ≠ 'E' :=
  ends c rfl

/-- The digits in front of a text are those up to the first character that is none. -/
theorem spanDigits_eq (text : List Char) :
    spanDigits text = (text.takeWhile Char.isDigit, text.dropWhile Char.isDigit) :=
  List.span_eq_takeWhile_dropWhile Char.isDigit text

/-- The text does not go on with a digit. -/
def EndsDigits (rest : List Char) : Prop := ∀ c ∈ rest.head?, c.isDigit = false

/-- At the end of the text there are no more digits. -/
theorem endsDigits_nil : EndsDigits [] := by
  intro c member
  cases member

/-- A character that is no digit ends those before it. -/
theorem endsDigits_cons {c : Char} (plain : c.isDigit = false) : EndsDigits (c :: rest) := by
  intro first member
  cases member
  exact plain

/-- What ends a number ends its digits. -/
theorem EndsNumber.endsDigits (ends : EndsNumber rest) : EndsDigits rest :=
  fun c member => (ends c member).1

/-- No digit is taken from what does not go on with one. -/
theorem EndsDigits.untouched (ends : EndsDigits rest) :
    rest.takeWhile Char.isDigit = [] ∧ rest.dropWhile Char.isDigit = rest := by
  cases rest with
  | nil => exact ⟨rfl, rfl⟩
  | cons c rest => simp [ends c rfl]

/-- Digits are taken as far as they go. -/
theorem spanDigits_of_digits (decimal : ∀ c ∈ digits, c.isDigit = true) (ends : EndsDigits rest) :
    spanDigits (digits ++ rest) = (digits, rest) := by
  rw [spanDigits_eq, List.takeWhile_append_of_pos decimal, List.dropWhile_append_of_pos decimal,
    ends.untouched.1, ends.untouched.2, List.append_nil]

/-- No digit is taken from what follows a number. -/
theorem spanDigits_append (text : List Char) (ends : EndsNumber rest) :
    spanDigits (text ++ rest) = ((spanDigits text).1, (spanDigits text).2 ++ rest) := by
  have none := ends.endsDigits.untouched
  simp only [spanDigits_eq]
  induction text with
  | nil => simp [none]
  | cons c text inductionHypothesis =>
    by_cases digit : c.isDigit
    · simpa [digit] using inductionHypothesis
    · simp [digit]

/-- What follows a number does not change how its whole part is read. -/
theorem readWhole_append (ends : EndsNumber rest) (whole : readWhole text = .ok (digits, after)) :
    readWhole (text ++ rest) = .ok (digits, after ++ rest) := by
  simp only [readWhole, spanDigits_append text ends] at whole ⊢
  split at whole <;> cases whole
  simp_all

/-- Without a point there is no fraction, and the text is left as it is. -/
theorem readFraction_of_no_point (absent : ∀ more, text ≠ '.' :: more) :
    readFraction text = .ok (none, text) :=
  readFraction.eq_2 text absent

/-- What follows a number does not change how its fraction is read. -/
theorem readFraction_append {fraction : Option (List Char)} (ends : EndsNumber rest)
    (read : readFraction text = .ok (fraction, after)) :
    readFraction (text ++ rest) = .ok (fraction, after ++ rest) := by
  by_cases point : ∃ more, text = '.' :: more
  · obtain ⟨more, rfl⟩ := point
    simp only [readFraction, List.cons_append, spanDigits_append more ends] at read ⊢
    split at read <;> cases read
    simp_all
  · have absent : ∀ more, text ++ rest ≠ '.' :: more := by
      intro more same
      cases text with
      | nil =>
        obtain rfl : rest = '.' :: more := same
        exact ends.cons.2.1 rfl
      | cons c text =>
        cases same
        exact point ⟨text, rfl⟩
    rw [readFraction_of_no_point fun more same => point ⟨more, same⟩] at read
    cases read
    exact readFraction_of_no_point absent

/-- The sign of an exponent, which is not written when it is positive, and the text after it. -/
def signOf : List Char → Bool × List Char
  | '-' :: rest => (true, rest)
  | '+' :: rest => (false, rest)
  | rest => (false, rest)

/-- Only a missing digit would let what follows decide about the sign. -/
theorem signOf_append (rest : List Char) (nonempty : text ≠ []) :
    signOf (text ++ rest) = ((signOf text).1, (signOf text).2 ++ rest) := by
  obtain ⟨sign, text, rfl⟩ := List.exists_cons_of_ne_nil nonempty
  by_cases minus : sign = '-'
  · subst minus
    rfl
  · by_cases plus : sign = '+'
    · subst plus
      rfl
    · simp [signOf, minus, plus]

/-- An exponent told from its mark, its sign and its digits. -/
theorem readExponent_cons (mark : Char) (text : List Char) :
    readExponent (mark :: text) =
      if mark = 'e' ∨ mark = 'E' then
        let found := spanDigits (signOf text).2
        let size := Nat.ofDigitChars 10 found.1 0
        if found.1.isEmpty then .error (missingDigit found.2)
        else .ok (some (if (signOf text).1 then -(size : Int) else size), found.2)
      else .ok (none, mark :: text) := by
  rfl

/-- What follows a number does not change how its exponent is read. -/
theorem readExponent_append {exponent : Option Int} (ends : EndsNumber rest)
    (read : readExponent text = .ok (exponent, after)) :
    readExponent (text ++ rest) = .ok (exponent, after ++ rest) := by
  cases text with
  | nil =>
    cases read
    cases rest with
    | nil => rfl
    | cons c rest => simp [readExponent, ends.cons]
  | cons mark text =>
    rw [List.cons_append, readExponent_cons] at *
    by_cases marked : mark = 'e' ∨ mark = 'E'
    · have nonempty : text ≠ [] := by
        rintro rfl
        simp [marked, signOf, spanDigits] at read
      simp only [marked, if_true, signOf_append rest nonempty, spanDigits_append _ ends] at read ⊢
      split at read <;> cases read
      simp_all
    · simp only [marked, if_false] at read ⊢
      cases read
      rfl

/-- A number after its sign. -/
def readUnsigned (negative : Bool) (text : List Char) :
    Except Fault (Option JsonNumber × List Char) := do
  let whole ← readWhole text
  let fraction ← readFraction whole.2
  let exponent ← readExponent fraction.2
  return (numberOf negative whole.1 fraction.1 exponent.1, exponent.2)

/-- A minus is in front of a number and makes it a negative one. -/
theorem readNumber_minus (text : List Char) : readNumber ('-' :: text) = readUnsigned true text :=
  rfl

/-- Without a minus the number is not negative. -/
theorem readNumber_of_ne {c : Char} (unsigned : c ≠ '-') (text : List Char) :
    readNumber (c :: text) = readUnsigned false (c :: text) := by
  simp [readNumber, readUnsigned, unsigned]

variable {number : Option JsonNumber}

/-- What comes to a result in two parts comes to one in the first. -/
theorem ok_of_bind {α β : Type} {first : Except Fault α} {next : α → Except Fault β} {result : β}
    (read : (first >>= next) = .ok result) :
    ∃ between, first = .ok between ∧ next between = .ok result := by
  cases first with
  | error fault => cases read
  | ok between => exact ⟨between, rfl, read⟩

/-- What follows a number does not change how it is read, since it does not for any of its parts. -/
theorem readUnsigned_append {negative : Bool} (ends : EndsNumber rest)
    (read : readUnsigned negative text = .ok (number, after)) :
    readUnsigned negative (text ++ rest) = .ok (number, after ++ rest) := by
  obtain ⟨whole, readsWhole, read⟩ := ok_of_bind read
  obtain ⟨fraction, readsFraction, read⟩ := ok_of_bind read
  obtain ⟨exponent, readsExponent, read⟩ := ok_of_bind read
  cases read
  rw [readUnsigned, readWhole_append ends readsWhole]
  change (readFraction (whole.2 ++ rest) >>= _) = _
  rw [readFraction_append ends readsFraction]
  change (readExponent (fraction.2 ++ rest) >>= _) = _
  rw [readExponent_append ends readsExponent]
  rfl

/-- The digits that may stand before the point: a zero stands in front only alone. -/
structure Whole (digits : List Char) : Prop where
  decimal : ∀ c ∈ digits, c.isDigit = true
  leading : digits = ['0'] ∨ ∃ c rest, digits = c :: rest ∧ c ≠ '0'

/-- Digits that have the form of a whole part are read as one. -/
theorem readWhole_of_whole (whole : Whole digits) (ends : EndsDigits rest) :
    readWhole (digits ++ rest) = .ok (digits, rest) := by
  rw [readWhole, spanDigits_of_digits whole.decimal ends]
  rcases whole.leading with rfl | ⟨c, others, rfl, nonzero⟩
  · rfl
  · simp [nonzero]

/-- A point with digits after it is read as a fraction. -/
theorem readFraction_of_digits (decimal : ∀ c ∈ digits, c.isDigit = true) (nonempty : digits ≠ [])
    (ends : EndsDigits rest) :
    readFraction ('.' :: (digits ++ rest)) = .ok (some digits, rest) := by
  simp [readFraction, spanDigits_of_digits decimal ends, nonempty]

/-- A numeral is read part by part: a whole part, then a fraction if there is a point, then an
exponent if there is a mark. -/
theorem readUnsigned_of_whole {negative : Bool} {fraction : Option (List Char)}
    {exponent : Option Int} (whole : Whole digits) (ends : EndsDigits rest)
    (readsFraction : readFraction rest = .ok (fraction, after))
    (readsExponent : readExponent after = .ok (exponent, [])) :
    readUnsigned negative (digits ++ rest) =
      .ok (numberOf negative digits fraction exponent, []) := by
  rw [readUnsigned, readWhole_of_whole whole ends]
  change (readFraction rest >>= _) = _
  rw [readsFraction]
  change (readExponent after >>= _) = _
  rw [readsExponent]
  rfl

/-- What is read as a number after its sign may do without one. -/
theorem readNumber_of_unsigned (read : readUnsigned false text = .ok (number, [])) :
    readNumber text = .ok (number, []) := by
  cases text with
  | nil => cases read
  | cons c text =>
    by_cases minus : c = '-'
    · subst minus
      cases read
    · rwa [readNumber_of_ne minus]

/-- A number that a text begins with is read in the same way where the text goes on. -/
theorem readNumber_append (ends : EndsNumber rest) (read : readNumber text = .ok (number, after)) :
    readNumber (text ++ rest) = .ok (number, after ++ rest) := by
  rcases text with _ | ⟨c, text⟩
  · cases read
  · by_cases minus : c = '-'
    · subst minus
      rw [List.cons_append, readNumber_minus] at *
      exact readUnsigned_append ends read
    · rw [List.cons_append, readNumber_of_ne minus] at *
      exact readUnsigned_append ends read

/-- A number begins with its sign or with a digit. -/
theorem readNumber_first (read : readNumber text = .ok (number, after)) :
    ∃ c rest, text = c :: rest ∧ (c = '-' ∨ c.isDigit = true) := by
  rcases text with _ | ⟨c, text⟩
  · cases read
  · refine ⟨c, text, rfl, or_iff_not_imp_left.2 fun unsigned => ?_⟩
    by_contra other
    rw [readNumber_of_ne unsigned] at read
    obtain ⟨whole, readsWhole, _⟩ := ok_of_bind read
    rw [readWhole, spanDigits_eq, List.takeWhile_cons_of_neg other] at readsWhole
    cases readsWhole

end Json

open Json Number

/-- The number is read from its own text, all of it, as what it is. -/
def JsonNumber.ReadsBack (number : JsonNumber) : Prop :=
  readNumber (writeNumber number) = .ok (some number, [])

deriving instance DecidableEq for JsonNumber

instance (number : JsonNumber) : Decidable number.ReadsBack :=
  decidable_of_iff ((readNumber (writeNumber number)).toOption = some (some number, [])) <| by
    unfold JsonNumber.ReadsBack
    cases readNumber (writeNumber number) <;> simp [Except.toOption]

/-- A finite double need not read back. The power of ten that this one is scaled by is not a double
itself, and the rounded one leads to the double before it. -/
theorem exists_not_readsBack :
    ∃ value : Float, value.isFinite = true ∧ ¬ (JsonNumber.real value).ReadsBack :=
  ⟨3e-36, by decide +kernel⟩

namespace Json

/-! ### Natural numbers -/

/-- The first digit of a numeral is a zero only in the numeral of zero; the reader would refuse it
in any other. -/
theorem toDigits_of_pos {size : Nat} (positive : 0 < size) :
    ∃ c rest, Nat.toDigits 10 size = c :: rest ∧ c ≠ '0' := by
  induction size using Nat.strongRecOn with
  | ind size inductionHypothesis =>
    by_cases small : size < 10
    · refine ⟨size.digitChar, [], Nat.toDigits_of_lt_base small, ?_⟩
      rw [ne_eq, Nat.digitChar_eq_zero]
      omega
    · -- The last digit is put behind digits that are there already.
      obtain ⟨c, rest, shape, nonzero⟩ := inductionHypothesis (size / 10) (by omega) (by omega)
      refine ⟨c, rest ++ [(size % 10).digitChar], ?_, nonzero⟩
      rw [Nat.toDigits_of_base_le (by decide) (by omega), shape, List.cons_append]

/-- A number is written in digits. -/
theorem isDigit_of_mem_toDigits {size : Nat} {c : Char} (member : c ∈ Nat.toDigits 10 size) :
    c.isDigit = true :=
  Nat.isDigit_of_mem_toDigits (by decide) (by decide) member

/-- As they are written they have no zero in front of others. -/
theorem whole_toDigits (size : Nat) : Whole (Nat.toDigits 10 size) := by
  refine ⟨fun c => isDigit_of_mem_toDigits, ?_⟩
  rcases Nat.eq_zero_or_pos size with rfl | positive
  · exact .inl rfl
  · exact .inr (toDigits_of_pos positive)

/-- The digits that a natural number is written with are read as a whole part. -/
theorem readUnsigned_toDigits (negative : Bool) (size : Nat) :
    readUnsigned negative (Nat.toDigits 10 size) =
      .ok (numberOf negative (Nat.toDigits 10 size) none none, []) := by
  have read : readUnsigned negative (Nat.toDigits 10 size ++ []) = _ :=
    readUnsigned_of_whole (whole_toDigits size) endsDigits_nil rfl rfl
  rwa [List.append_nil] at read

/-- The exponent of a double is written so that it can be read, with its sign. -/
theorem readExponent_exponentText (exponent : Int) :
    ∃ read, readExponent ('e' :: exponentText exponent) = .ok (read, []) := by
  have nonempty : Nat.toDigits 10 exponent.natAbs ≠ [] := Nat.toDigits_ne_nil
  have span : spanDigits (Nat.toDigits 10 exponent.natAbs) =
      (Nat.toDigits 10 exponent.natAbs, []) := by
    have all := spanDigits_of_digits (whole_toDigits exponent.natAbs).decimal endsDigits_nil
    rwa [List.append_nil] at all
  have signed : (signOf (exponentText exponent)).2 = Nat.toDigits 10 exponent.natAbs := by
    rw [exponentText]
    split <;> rfl
  rw [readExponent_cons, if_pos (.inl rfl), signed, span]
  simp [nonempty]

/-- Every natural number of 64 bits reads back. -/
theorem readsBack_natural {size : Nat} (small : size ≤ greatestNatural) :
    (JsonNumber.natural size).ReadsBack := by
  have read := readNumber_of_unsigned (readUnsigned_toDigits false size)
  rw [JsonNumber.ReadsBack, writeNumber, read]
  simp [numberOf, small]

end Json

end CoroutineVM
