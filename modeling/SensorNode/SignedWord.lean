import Mathlib.Algebra.Order.Ring.Abs
import Mathlib.Tactic.Linarith

/-!
Signed fixed-width arithmetic read as integers. An operation whose exact result
fits the width has that result; an arithmetic right shift divides by a power of
two and rounds down; a narrowing keeps the value exactly when it fits. Bounds are
tracked as `Within`, which products, sums and shifts preserve.
-/

namespace SensorNode.SignedWord

/-- At most the bound in magnitude. -/
def Within (bound value : Int) : Prop := -bound ≤ value ∧ value ≤ bound

def Fits64 (value : Int) : Prop := -2 ^ 63 ≤ value ∧ value < 2 ^ 63

def Fits32 (value : Int) : Prop := -2 ^ 31 ≤ value ∧ value < 2 ^ 31

instance (value : Int) : Decidable (Fits32 value) :=
  inferInstanceAs (Decidable (_ ∧ _))

/-! ## Bounds -/

theorem within_iff_abs (bound value : Int) : Within bound value ↔ |value| ≤ bound :=
  abs_le.symm

theorem within_mul {left right first second : Int} (one : Within left first)
    (other : Within right second) : Within (left * right) (first * second) := by
  rw [within_iff_abs] at *
  rw [abs_mul]
  exact mul_le_mul one other (abs_nonneg second) ((abs_nonneg first).trans one)

theorem within_add {left right first second : Int} (one : Within left first)
    (other : Within right second) : Within (left + right) (first + second) := by
  unfold Within at *
  omega

theorem within_sub {left right first second : Int} (one : Within left first)
    (other : Within right second) : Within (left + right) (first - second) := by
  unfold Within at *
  omega

theorem within_div {bound value divisor : Int} (positive : 0 < divisor)
    (whole : Within (bound * divisor) value) : Within bound (value / divisor) := by
  constructor
  · rw [Int.le_ediv_iff_mul_le positive, Int.neg_mul]
    exact whole.1
  · exact Int.ediv_le_of_le_mul positive whole.2

theorem within_mono {small large value : Int} (tight : Within small value)
    (wider : small ≤ large) : Within large value := by
  unfold Within at *
  omega

theorem within_fits64 {bound value : Int} (tight : Within bound value) (small : bound < 2 ^ 63) :
    Fits64 value := by
  unfold Within at tight
  unfold Fits64
  omega

theorem within_fits32 {bound value : Int} (tight : Within bound value) (small : bound < 2 ^ 31) :
    Fits32 value := by
  unfold Within at tight
  unfold Fits32
  omega

/-! ## Operations on 64 bits -/

section
variable {left right : Int64} {first second : Int} (one : left.toInt = first)
  (other : right.toInt = second)
include one other

theorem mul_exact (fits : Fits64 (first * second)) : (left * right).toInt = first * second := by
  rw [Int64.toInt_mul, one, other]
  exact Int.bmod_eq_of_le fits.1 fits.2

theorem add_exact (fits : Fits64 (first + second)) : (left + right).toInt = first + second := by
  rw [Int64.toInt_add, one, other]
  exact Int.bmod_eq_of_le fits.1 fits.2

theorem sub_exact (fits : Fits64 (first - second)) : (left - right).toInt = first - second := by
  rw [Int64.toInt_sub, one, other]
  exact Int.bmod_eq_of_le fits.1 fits.2

end

theorem amount64 : ∀ count < 64, ((Int64.ofNat count).toBitVec.smod 64).toNat = count := by
  decide

theorem amount32 : ∀ count < 32, ((Int32.ofNat count).toBitVec.smod 32).toNat = count := by
  decide

section
variable {word : Int64} {value : Int} (reads : word.toInt = value) (count : Nat)
  (small : count < 64)
include reads small

/-- An arithmetic right shift rounds down. -/
theorem shiftRight_exact : (word >>> Int64.ofNat count).toInt = value / 2 ^ count := by
  rw [← Int64.toInt_toBitVec, Int64.toBitVec_shiftRight, BitVec.toInt_sshiftRight',
    Int64.toInt_toBitVec, amount64 count small, Int.shiftRight_eq_div_pow, reads]
  norm_cast

theorem shiftLeft_exact (nonneg : 0 ≤ value) (fits : Fits64 (value * 2 ^ count)) :
    (word <<< Int64.ofNat count).toInt = value * 2 ^ count := by
  have unsigned : (word.toBitVec.toNat : Int) = value := by
    have same : word.toBitVec.toInt = value := reads
    have range := BitVec.toInt_eq_toNat_cond word.toBitVec
    have bound := word.toBitVec.isLt
    split at range <;> omega
  rw [← Int64.toInt_toBitVec, Int64.toBitVec_shiftLeft, BitVec.shiftLeft_eq',
    amount64 count small, BitVec.toInt_shiftLeft, Nat.shiftLeft_eq, Int.natCast_mul, unsigned]
  exact Int.bmod_eq_of_le fits.1 fits.2

end

/-! ## Operations on 32 bits and conversions -/

theorem add32_exact {left right : Int32} {first second : Int} (one : left.toInt = first)
    (other : right.toInt = second) (fits : Fits32 (first + second)) :
    (left + right).toInt = first + second := by
  rw [Int32.toInt_add, one, other]
  exact Int.bmod_eq_of_le fits.1 fits.2

theorem sub32_exact {left right : Int32} {first second : Int} (one : left.toInt = first)
    (other : right.toInt = second) (fits : Fits32 (first - second)) :
    (left - right).toInt = first - second := by
  rw [Int32.toInt_sub, one, other]
  exact Int.bmod_eq_of_le fits.1 fits.2

theorem widen_exact {word : Int32} {value : Int} (reads : word.toInt = value) :
    word.toInt64.toInt = value := by
  rw [Int32.toInt_toInt64, reads]

theorem narrow_exact {word : Int64} {value : Int} (reads : word.toInt = value)
    (fits : Fits32 value) : word.toInt32.toInt = value := by
  rw [Int64.toInt_toInt32, reads]
  exact Int.bmod_eq_of_le fits.1 fits.2

theorem unsigned16_exact (word : UInt16) : word.toUInt64.toInt64.toInt = word.toNat := by
  have small := word.toNat_lt
  have same : word.toUInt64.toInt64.toInt = word.toUInt64.toBitVec.toInt := rfl
  rw [same, BitVec.toInt_eq_toNat_of_lt]
  · simp
  · simp only [UInt64.toNat_toBitVec, UInt16.toNat_toUInt64]
    omega

theorem unsigned32_exact (word : UInt32) : word.toUInt64.toInt64.toInt = word.toNat := by
  have small := word.toNat_lt
  have same : word.toUInt64.toInt64.toInt = word.toUInt64.toBitVec.toInt := rfl
  rw [same, BitVec.toInt_eq_toNat_of_lt]
  · simp
  · simp only [UInt64.toNat_toBitVec, UInt32.toNat_toUInt64]
    omega

theorem signed32_exact (word : UInt32) (small : word.toNat < 2 ^ 31) :
    word.toInt32.toInt = word.toNat := by
  have same : word.toInt32.toInt = word.toBitVec.toInt := rfl
  rw [same, BitVec.toInt_eq_toNat_of_lt]
  · rfl
  · rw [UInt32.toNat_toBitVec]
    omega

theorem shiftRight32_exact {word : Int32} {value : Int} (reads : word.toInt = value) (count : Nat)
    (small : count < 32) : (word >>> Int32.ofNat count).toInt = value / 2 ^ count := by
  rw [← Int32.toInt_toBitVec, Int32.toBitVec_shiftRight, BitVec.toInt_sshiftRight',
    Int32.toInt_toBitVec, amount32 count small, Int.shiftRight_eq_div_pow, reads]
  norm_cast

/-- Narrowing before a shift agrees with the shift alone exactly when nothing is
narrowed away: a lost multiple of the width would still show after the shift. -/
theorem narrow_shift_iff {word : Int64} {value : Int} (reads : word.toInt = value) (count : Nat)
    (small : count < 32) :
    (word.toInt32 >>> Int32.ofNat count).toInt = value / 2 ^ count ↔ Fits32 value := by
  constructor
  · intro same
    rw [shiftRight32_exact rfl count small, Int64.toInt_toInt32, reads] at same
    have low := Int.le_bmod (x := value) (m := 2 ^ 32) (by decide)
    have high := Int.bmod_lt (x := value) (m := 2 ^ 32) (by decide)
    obtain ⟨turns, lost⟩ : ∃ turns, value = value.bmod (2 ^ 32) + turns * 2 ^ 32 := by
      refine ⟨value.bdiv (2 ^ 32), ?_⟩
      have parts := Int.bdiv_add_bmod value (2 ^ 32)
      push_cast at parts ⊢
      linarith
    have power : (2 : Int) ^ 32 = 2 ^ (32 - count) * 2 ^ count := by
      rw [← pow_add, Nat.sub_add_cancel small.le]
    have positive : (0 : Int) < 2 ^ count := by positivity
    have shown : value / 2 ^ count =
        value.bmod (2 ^ 32) / 2 ^ count + turns * 2 ^ (32 - count) := by
      conv_lhs => rw [lost, power, ← mul_assoc]
      exact Int.add_mul_ediv_right _ _ positive.ne'
    have none : turns * 2 ^ (32 - count) = 0 := by omega
    have still : turns = 0 := by
      rcases mul_eq_zero.mp none with zero | zero
      · exact zero
      · exact absurd zero (by positivity)
    rw [still, zero_mul, add_zero] at lost
    unfold Fits32
    omega
  · intro fits
    exact shiftRight32_exact (narrow_exact reads fits) count small

end SensorNode.SignedWord
