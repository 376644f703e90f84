import CoroutineVM.Processor.Basic
import Mathlib

/-!
# Natural numbers that a floating-point number holds exactly

A number of arguments lies on the value stack as a floating-point number. Below 2^53 nothing is lost
by that: the significand has 53 bits, so the number is only shifted until its first bit stands in
front, and reading it back shifts it down again. `countOf?_countValue` says this of the model's two
conversions, and whatever is said about where a return drops the stack to rests on it.

The lemmas before it follow the conversion through its stages: normalizing, packing into 64 bits,
unpacking, and truncating to an integer. Numbers from 2^53 on are rounded and are not treated.
-/

namespace CoroutineVM.Number

open Float.Model Float.Model.UnpackedFloat

/-- The significand of a small natural number: shifted until it has 53 bits. -/
def significand (number : Nat) : Nat := number <<< (52 - number.log2)

variable {number : Nat}

/-- A number of at most 53 bits has its first bit at place 52 or below. -/
theorem log2_small (positive : 0 < number) (small : number < 2 ^ 53) : number.log2 < 53 :=
  (Nat.log2_lt (Nat.ne_of_gt positive)).2 small

/-- The significand of a number that is not zero is not zero, since it is the number shifted. -/
theorem significand_pos (positive : 0 < number) : 0 < significand number := by
  rw [significand, Nat.shiftLeft_eq]
  positivity

/-- The first bit of the significand stands at place 52, because the number has been shifted up
until it did. So the significand has 53 bits. -/
theorem significand_log2 (positive : 0 < number) (small : number < 2 ^ 53) :
    (significand number).log2 = 52 := by
  have bound := log2_small positive small
  have lower : 2 ^ number.log2 ≤ number := Nat.log2_self_le (Nat.ne_of_gt positive)
  have upper : number < 2 ^ (number.log2 + 1) := Nat.lt_log2_self
  have first : 2 ^ number.log2 * 2 ^ (52 - number.log2) = 2 ^ 52 := by
    rw [← pow_add]
    congr 1
    omega
  have after : 2 ^ (number.log2 + 1) * 2 ^ (52 - number.log2) = 2 ^ 53 := by
    rw [← pow_add]
    congr 1
    omega
  rw [Nat.log2_eq_iff (Nat.ne_of_gt (significand_pos positive)), significand, Nat.shiftLeft_eq]
  constructor
  · rw [← first]
    exact Nat.mul_le_mul_right _ lower
  · rw [← after]
    exact Nat.mul_lt_mul_of_pos_right upper (by positivity)

/-- Normalizing a small natural number drops no bit, so that no rounding takes place. The number is
shifted up until its first bit is the highest of the 53, and the exponent says by how much. -/
theorem ofNat_exact (positive : 0 < number) (small : number < 2 ^ 53) :
    UnpackedFloat.ofNat Format.binary64 number =
      .finite .positive (significand number) ((number.log2 : Int) - 52)
        (significand_pos positive) := by
  have bound := log2_small positive small
  have order : compare (number : Int) 0 = .gt := by
    rw [compare_gt_iff_gt]
    omega
  have target : Format.binary64.targetExponent (totalExponent number 0) =
      (number.log2 : Int) - 52 := by
    simp [Format.targetExponent, totalExponent, Format.mantissaBits, Format.minExponent]
    omega
  have again : Format.binary64.targetExponent
      (totalExponent (significand number) ((number.log2 : Int) - 52)) =
        (number.log2 : Int) - 52 := by
    simp [Format.targetExponent, totalExponent, Format.mantissaBits, Format.minExponent,
      significand_log2 positive small]
    omega
  have amount : ((0 : Int) - ((number.log2 : Int) - 52)).toNat = 52 - number.log2 := by omega
  have exponent : (0 : Int) - ((52 - number.log2 : Nat) : Int) = (number.log2 : Int) - 52 := by
    omega
  have unmoved : ∀ extended : ExtendedMantissa, extended >>> 0 = extended := fun _ => rfl
  have kept : shiftToTargetExponent Format.binary64 (significand number)
      ((number.log2 : Int) - 52) .exact =
        (⟨significand number, false, false⟩, (number.log2 : Int) - 52) := by
    simp [shiftToTargetExponent, again, shiftToExponent, ExtendedMantissa.ofMantissaAndAccuracy,
      unmoved]
  have nonzero : significand number ≠ 0 := Nat.ne_of_gt (significand_pos positive)
  simp only [UnpackedFloat.ofNat, UnpackedFloat.ofInt, UnpackedFloat.normalize, order,
    UnpackedFloat.round, decreaseExponent, Int.toNat_natCast, target, amount, exponent]
  rw [← significand]
  simp [roundWithAccuracy, kept, ExtendedMantissa.roundedMantissa, ExtendedMantissa.accuracy,
    Accuracy.roundToNearestEven, nonzero]

/-- The 64 bits of a normal number between one and 2^53 give the number back. Its exponent is
neither the least nor the greatest one, so that the bits are those of a normal number. -/
theorem unpack_pack {mantissa : Nat} {exponent : Int} (positive : 0 < mantissa)
    (first : mantissa.log2 = 52) (low : -52 ≤ exponent) (high : exponent ≤ 0) :
    UnpackedFloat.unpack Format.binary64
        (UnpackedFloat.pack Format.binary64 (.finite .positive mantissa exponent positive)) =
      .finite .positive mantissa exponent positive := by
  have lower : 2 ^ 52 ≤ mantissa := first ▸ Nat.log2_self_le (Nat.ne_of_gt positive)
  have upper : mantissa < 2 ^ 53 := by
    have bound := @Nat.lt_log2_self mantissa
    rwa [first] at bound
  have packed : UnpackedFloat.pack Format.binary64 (.finite .positive mantissa exponent positive) =
      packComponents Format.binary64 .positive (BitVec.ofNat _ (exponent + 1075).toNat)
        (BitVec.ofNat _ mantissa) := by
    have biased : (exponent + (Format.binary64.exponentBias : Int) + (52 : Nat)).toNat =
        (exponent + 1075).toNat := by
      simp [Format.exponentBias]
      omega
    have finite : ¬ 2 ^ 11 ≤ (exponent + 1075).toNat + 1 := by omega
    simp only [UnpackedFloat.pack, biased, finite, if_false, first, Format.mantissaBits]
    rfl
  have stored : (BitVec.ofNat 11 (exponent + 1075).toNat).toNat = (exponent + 1075).toNat := by
    rw [BitVec.toNat_ofNat]
    omega
  have notAllOnes : BitVec.ofNat 11 (exponent + 1075).toNat ≠ -1#11 := by
    intro same
    have equal := congrArg BitVec.toNat same
    rw [stored] at equal
    simp at equal
    omega
  have notZero : BitVec.ofNat 11 (exponent + 1075).toNat ≠ 0#11 := by
    intro same
    have equal := congrArg BitVec.toNat same
    rw [stored] at equal
    simp at equal
    omega
  have leading : (1#1 ++ BitVec.ofNat 52 mantissa).toNat = mantissa := by
    rw [BitVec.toNat_append, BitVec.toNat_ofNat, BitVec.toNat_ofNat, Nat.shiftLeft_eq, Nat.mul_comm,
      ← Nat.two_pow_add_eq_or_of_lt (Nat.mod_lt _ (by positivity))]
    omega
  have unbiased : ((exponent + 1075).toNat : Int) - (Format.binary64.exponentBias + 52 : Nat) =
      exponent := by
    simp [Format.exponentBias]
    omega
  rw [packed, UnpackedFloat.unpack]
  simp only [unpackExponent_packComponents, unpackMantissa_packComponents,
    unpackSign_packComponents, notAllOnes, notZero, if_false, stored]
  congr 1

/-- Shifting right undoes shifting left, one place at a time. -/
theorem shiftRight_shiftLeft (places : Nat) (extended : ExtendedMantissa)
    (shifted : extended.mantissa = number <<< places) :
    (extended >>> places).mantissa = number := by
  induction places generalizing number extended with
  | zero => exact shifted
  | succ places inductionHypothesis =>
    have last : extended >>> (places + 1) = (extended >>> places).shiftRightOne := rfl
    have before : (extended >>> places).mantissa = number * 2 := by
      apply inductionHypothesis
      rw [shifted, Nat.shiftLeft_eq, Nat.shiftLeft_eq, Nat.pow_succ]
      ring
    rw [last, ExtendedMantissa.shiftRightOne, before]
    exact Nat.mul_div_cancel number (by decide)

/-- What a small natural number is as a floating-point number. -/
theorem toFloat_unpack (positive : 0 < number) (small : number < 2 ^ 53) :
    number.toUInt64.toFloat.toModel.unpack =
      .finite .positive (significand number) ((number.log2 : Int) - 52)
        (significand_pos positive) := by
  have bound := log2_small positive small
  have fits : number.toUInt64.toNat = number := by
    simp only [Nat.toUInt64_eq, UInt64.toNat_ofNat']
    omega
  simp only [UInt64.toFloat, Float.Model.ofUInt64, UnpackedFloat.ofUInt64, fits,
    ofNat_exact positive small, Float.Model.unpack, Float.Model.pack]
  exact unpack_pack _ (significand_log2 positive small) (by omega) (by omega)

/-- A small natural number comes back from a floating-point number as it went in. It is normalized,
packed, unpacked and truncated, and each stage has its own lemma above. -/
theorem toUInt64_toFloat (positive : 0 < number) (small : number < 2 ^ 53) :
    number.toUInt64.toFloat.toUInt64.toNat = number := by
  have bound := log2_small positive small
  have raised : ((number.log2 : Int) - 52).toNat = 0 := by omega
  have lowered : (0 - ((number.log2 : Int) - 52)).toNat = 52 - number.log2 := by omega
  have back : (ExtendedMantissa.mk (significand number) false false >>>
      (52 - number.log2)).mantissa = number := shiftRight_shiftLeft _ _ rfl
  simp only [Float.toUInt64, Float.Model.toUInt64, toFloat_unpack positive small,
    UnpackedFloat.toUInt64, UnpackedFloat.toInt, roundToInt, decreaseExponent, raised,
    shiftToExponent, Nat.shiftLeft_zero, ExtendedMantissa.ofMantissaAndAccuracy,
    Nat.cast_zero, sub_zero, lowered, back, Sign.apply, Int.toNat_natCast]
  rw [UInt64.toNat_ofNatClamp_of_lt (by rw [UInt64.size]; omega)]

/-- A natural number is not below zero as a floating-point number. -/
theorem zero_le_toFloat (positive : 0 < number) (small : number < 2 ^ 53) :
    (0 : Float) ≤ number.toUInt64.toFloat := by
  have zero : (0 : Float).toModel.unpack = .zero .positive := rfl
  change Float.le _ _ = true
  rw [Float.le, decide_eq_true_eq]
  change UnpackedFloat.le _ _ = true
  simp [UnpackedFloat.le, zero, toFloat_unpack positive small, UnpackedFloat.compare]

end CoroutineVM.Number

namespace CoroutineVM.Processor

/-- A number of arguments below 2^53 is read back from the slot that records it.

Zero is settled by computation, because it has no first bit to normalize to. -/
theorem countOf?_countValue {count : Nat} (small : count < 2 ^ 53) :
    countOf? (countValue count) = some count := by
  rcases Nat.eq_zero_or_pos count with rfl | positive
  · rfl
  · simp only [countOf?, countValue, Number.zero_le_toFloat positive small, if_true,
      Number.toUInt64_toFloat positive small]

/-- So is 2^53 itself, the last number up to which every natural has a numeral of its own. -/
theorem countOf?_countValue_of_le {count : Nat} (small : count ≤ 2 ^ 53) :
    countOf? (countValue count) = some count := by
  rcases Nat.lt_or_eq_of_le small with below | rfl
  · exact countOf?_countValue below
  · rfl

/-- The next number has none, so that what is read back is another one. -/
example : countOf? (countValue (2 ^ 53 + 1)) = some (2 ^ 53) := rfl

end CoroutineVM.Processor
