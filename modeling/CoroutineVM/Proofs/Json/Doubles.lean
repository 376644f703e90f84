import CoroutineVM.Proofs.Json.Numerals

/-!
# Every double has a text

Chunk text has no form for what is not finite, and `null` stands in for it. The text of every finite
double is a numeral, which the reader takes whole (`readNumber_writeNumber`), be it as the same
double or not.

The reader refuses a zero before another digit, and a point or an exponent mark without a digit
after it. So it has to be known of the digits of a double that the first of them is not a zero
(`shortest_digits`); where the point and the mark stand follows from how a layout cuts the digits.
-/

namespace CoroutineVM

namespace Number

variable {tie : Tie} {binary : Binary}

/-- The grid point zero is never taken: whatever reads back as a positive double is positive. So the
digits that the search ends with have no zero in front. -/
theorem nearestOnGrid?_pos {k : Int} {digits : Nat} (positive : 0 < binary.significand)
    (found : nearestOnGrid? tie binary k = some digits) : 0 < digits := by
  unfold nearestOnGrid? at found
  extract_lets twos unit value low high inclusive below lowerFits upperFits toLower toUpper at found
  have lowest : 0 < low := by
    refine Nat.mul_pos ?_ (Nat.mul_pos (Nat.pow_pos (by decide)) (Nat.pow_pos (by decide)))
    split <;> omega
  have lower : lowerFits = true → 0 < below := by
    intro fits
    by_contra zero
    have none : below * unit = 0 := by rw [Nat.eq_zero_of_not_pos zero, Nat.zero_mul]
    have nonzero : (low == 0) = false := beq_false_of_ne (Nat.ne_of_gt lowest)
    simp [lowerFits, none, nonzero] at fits
  -- The grid point above is positive in any case.
  grind

/-- Digits that are found for a double have no zero in front, as the number that they make is
positive. -/
theorem firstGrid_digits (positive : 0 < binary.significand) (top : Int) (count tries : Nat) :
    firstGrid tie binary top count tries = ⟨0, 0⟩ ∨
      0 < (firstGrid tie binary top count tries).digits := by
  induction tries generalizing count with
  | zero => exact .inl rfl
  | succ tries inductionHypothesis =>
    rw [firstGrid]
    split
    · next digits found => exact .inr (nearestOnGrid?_pos positive found)
    · exact inductionHypothesis (count + 1)

/-- Taking zeros away at the end leaves the front alone. -/
theorem stripZeros_digits {decimal : Decimal} (tries : Nat)
    (digits : decimal = ⟨0, 0⟩ ∨ 0 < decimal.digits) :
    decimal.stripZeros tries = ⟨0, 0⟩ ∨ 0 < (decimal.stripZeros tries).digits := by
  induction tries generalizing decimal with
  | zero => exact digits
  | succ tries inductionHypothesis =>
    rw [Decimal.stripZeros]
    split
    · next ends => exact inductionHypothesis (.inr (by dsimp only; omega))
    · exact digits

/-- Only zero has no digit but zeros. -/
theorem shortest_digits (tie : Tie) (binary : Binary) :
    shortest tie binary = ⟨0, 0⟩ ∨ 0 < (shortest tie binary).digits := by
  rw [shortest]
  split
  · exact .inl rfl
  · next nonzero =>
    exact stripZeros_digits 17 (firstGrid_digits (Nat.pos_of_ne_zero nonzero) _ _ _)

end Number

namespace Json

open Number

variable {digits : List Char}

/-- A number without an exponent has a point, with a digit on either side. The point may stand in
front of the digits, behind them or among them, and zeros fill up what is missing. -/
theorem positional_parts (decimal : ∀ c ∈ digits, c.isDigit = true)
    (leading : ∃ c rest, digits = c :: rest ∧ c ≠ '0') (magnitude : Int) :
    ∃ whole fraction, positional true digits magnitude = whole ++ '.' :: fraction ∧
      Whole whole ∧ (∀ c ∈ fraction, c.isDigit = true) ∧ fraction ≠ [] := by
  have zeros : ∀ count, ∀ c ∈ List.replicate count '0', c.isDigit = true := by
    intro count c member
    rw [List.eq_of_mem_replicate member]
    rfl
  obtain ⟨first, others, rfl, nonzero⟩ := leading
  rw [positional]
  split
  · -- A zero before the point, and zeros before the digits.
    refine ⟨['0'], List.replicate (-magnitude).toNat '0' ++ first :: others, rfl,
      ⟨by simp, .inl rfl⟩, ?_, by simp⟩
    intro c member
    exact (List.mem_append.1 member).elim (zeros _ c) (decimal c)
  · split
    · -- All digits before the point, and zeros after them.
      refine ⟨first :: others ++ List.replicate (magnitude.toNat - (first :: others).length) '0',
        ['0'], rfl, ⟨?_, .inr ⟨first, _, rfl, nonzero⟩⟩, by simp, by simp⟩
      intro c member
      exact (List.mem_append.1 member).elim (decimal c) (zeros _ c)
    · next long =>
      -- The point is among the digits, at least one of which stands before it.
      obtain ⟨count, places⟩ : ∃ count, magnitude.toNat = count + 1 :=
        ⟨magnitude.toNat - 1, by omega⟩
      refine ⟨(first :: others).take magnitude.toNat, (first :: others).drop magnitude.toNat,
        by simp, ⟨fun c member => decimal c (List.mem_of_mem_take member), .inr ?_⟩,
        fun c member => decimal c (List.mem_of_mem_drop member), ?_⟩
      · exact ⟨first, others.take count, by rw [places, List.take_succ_cons], nonzero⟩
      · rw [ne_eq, List.drop_eq_nil_iff]
        exact long

/-- Digits with a point among them are a numeral, wherever the point comes to stand. -/
theorem readUnsigned_positional (negative : Bool) (decimal : ∀ c ∈ digits, c.isDigit = true)
    (leading : ∃ c rest, digits = c :: rest ∧ c ≠ '0') (magnitude : Int) :
    ∃ number, readUnsigned negative (positional true digits magnitude) = .ok (number, []) := by
  obtain ⟨whole, fraction, shape, isWhole, decimals, nonempty⟩ :=
    positional_parts decimal leading magnitude
  have read := readFraction_of_digits decimals nonempty endsDigits_nil
  rw [List.append_nil] at read
  rw [shape]
  exact ⟨_, readUnsigned_of_whole isWhole (endsDigits_cons rfl) read rfl⟩

/-- So are digits with an exponent. One digit stands in front of the point, and if it is the only
one there is no point at all. -/
theorem readUnsigned_scientific (negative : Bool) (decimal : ∀ c ∈ digits, c.isDigit = true)
    (leading : ∃ c rest, digits = c :: rest ∧ c ≠ '0') (magnitude : Int) :
    ∃ number, readUnsigned negative (scientific digits magnitude) = .ok (number, []) := by
  obtain ⟨first, others, rfl, nonzero⟩ := leading
  have whole : Whole [first] := by
    refine ⟨?_, .inr ⟨first, [], rfl, nonzero⟩⟩
    intro c member
    rw [List.mem_singleton.1 member]
    exact decimal first List.mem_cons_self
  obtain ⟨exponent, readsExponent⟩ := readExponent_exponentText (magnitude - 1)
  cases others with
  | nil =>
    have absent : readFraction ('e' :: exponentText (magnitude - 1)) =
        .ok (none, 'e' :: exponentText (magnitude - 1)) := rfl
    exact ⟨_, readUnsigned_of_whole whole (endsDigits_cons rfl) absent readsExponent⟩
  | cons next others =>
    have decimals : ∀ c ∈ next :: others, c.isDigit = true := fun c member =>
      decimal c (List.mem_cons_of_mem _ member)
    have ends : EndsDigits ('e' :: exponentText (magnitude - 1)) := endsDigits_cons rfl
    have read := readFraction_of_digits decimals (List.cons_ne_nil _ _) ends
    have shape : scientific (first :: next :: others) magnitude =
        [first] ++ '.' :: (next :: others ++ 'e' :: exponentText (magnitude - 1)) := rfl
    rw [shape]
    exact ⟨_, readUnsigned_of_whole whole (endsDigits_cons rfl) read readsExponent⟩

/-- What is written of a decimal, in either layout, is a numeral. -/
theorem readUnsigned_write (negative : Bool) {decimal : Decimal}
    (digits : decimal = ⟨0, 0⟩ ∨ 0 < decimal.digits) :
    ∃ number, readUnsigned negative (decimal.write .chunkText) = .ok (number, []) := by
  rcases digits with rfl | positive
  · exact ⟨_, rfl⟩
  · have decimals := (whole_toDigits decimal.digits).decimal
    have leading := toDigits_of_pos positive
    rw [Decimal.write]
    split
    · exact readUnsigned_positional negative decimals leading _
    · exact readUnsigned_scientific negative decimals leading _

/-- A finite double is written as a numeral. -/
theorem readNumber_writeFinite (value : Float) :
    ∃ number, readNumber (writeFinite .chunkText value) = .ok (number, []) := by
  have digits := shortest_digits Layout.chunkText.tie (magnitude value)
  rw [writeFinite]
  by_cases negative : isNegative value = true
  · obtain ⟨number, read⟩ := readUnsigned_write true digits
    rw [if_pos negative]
    exact ⟨number, read⟩
  · obtain ⟨number, read⟩ := readUnsigned_write false digits
    rw [if_neg negative]
    exact ⟨number, readNumber_of_unsigned read⟩

/-- What is written for a number is a numeral, or `null` where there is none. -/
theorem readNumber_writeNumber (number : JsonNumber) :
    (∃ read, readNumber (writeNumber number) = .ok (read, [])) ∨
      writeNumber number = ['n', 'u', 'l', 'l'] := by
  cases number with
  | natural size => exact .inl ⟨_, readNumber_of_unsigned (readUnsigned_toDigits false size)⟩
  | negative size => exact .inl ⟨_, readUnsigned_toDigits true size⟩
  | real value =>
    rw [writeNumber]
    split
    · exact .inl (readNumber_writeFinite value)
    · exact .inr rfl

end Json

end CoroutineVM
