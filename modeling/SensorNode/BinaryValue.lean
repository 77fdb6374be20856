import Mathlib

/-!
The rational number a binary32 value denotes. Its denominator is a power of two, and a number
other than zero is denoted by one value only.
-/

namespace SensorNode.BinaryValue

open Float.Model
open Float.Model.UnpackedFloat (Sign)

def unpackedNumber : UnpackedFloat → Option ℚ
  | .finite sign mantissa exponent _ => some (sign.apply mantissa * 2 ^ exponent)
  | .zero _ => some 0
  | .infinity _ | .notANumber => none

/-- None for an infinity or a NaN. -/
def exactValue (value : Float32) : Option ℚ := unpackedNumber value.toModel.unpack

theorem exactValue_isSome (value : Float32) : (exactValue value).isSome = value.isFinite := by
  unfold exactValue Float32.isFinite Float32.Model.isFinite
  cases value.toModel.unpack <;> rfl

/-! ## Dyadic denominators -/

theorem dyadic_den (coefficient exponent : ℤ) :
    ∃ power, ((coefficient : ℚ) * 2 ^ exponent).den ∣ 2 ^ power := by
  obtain ⟨power, rfl | rfl⟩ := exponent.eq_nat_or_neg
  · refine ⟨0, ?_⟩
    have whole : (coefficient : ℚ) * 2 ^ (power : ℤ) = (coefficient * 2 ^ power : ℤ) := by
      push_cast
      rw [zpow_natCast]
    rw [whole, Rat.den_intCast]
    exact one_dvd _
  · refine ⟨power, ?_⟩
    have quotient : (coefficient : ℚ) * 2 ^ (-(power : ℤ)) =
        (coefficient : ℚ) / ((2 ^ power : ℤ) : ℚ) := by
      rw [zpow_neg, zpow_natCast]
      push_cast
      rfl
    rw [quotient]
    exact_mod_cast Rat.den_dvd coefficient (2 ^ power)

theorem exactValue_den (value : Float32) (number : ℚ) (denotes : exactValue value = some number) :
    ∃ power, number.den ∣ 2 ^ power := by
  unfold exactValue unpackedNumber at denotes
  split at denotes
  · cases denotes
    exact dyadic_den _ _
  · cases denotes
    exact ⟨0, one_dvd _⟩
  · cases denotes
  · cases denotes

/-- A number with an odd prime in its denominator is no binary32 value. -/
theorem exactValue_ne (value : Float32) (number other : ℚ) (factor : ℕ) (prime : factor.Prime)
    (odd : factor ≠ 2) (divides : factor ∣ other.den) (denotes : exactValue value = some number) :
    number ≠ other := by
  rintro rfl
  obtain ⟨power, dyadic⟩ := exactValue_den value number denotes
  have two : factor ∣ 2 := prime.dvd_of_dvd_pow (divides.trans dyadic)
  exact odd ((Nat.prime_dvd_prime_iff_eq prime Nat.prime_two).mp two)

/-! ## One value for each number -/

def signBit : Sign → ℕ
  | .positive => 0
  | .negative => 1

/-- The bits of a finite value: the exponent counts from -149, and the leading bit of a normal
mantissa carries into its field. -/
def encoding (sign : Sign) (mantissa : ℕ) (exponent : ℤ) : ℕ :=
  signBit sign * 2 ^ 31 + (exponent + 149).toNat * 2 ^ 23 + mantissa

theorem mantissa_field (bits : BitVec 32) :
    (@UnpackedFloat.unpackMantissa Format.binary32 bits).toNat = bits.toNat % 2 ^ 23 := by
  simp [UnpackedFloat.unpackMantissa, BitVec.extractLsb_toNat]

theorem exponent_field (bits : BitVec 32) :
    (@UnpackedFloat.unpackExponent Format.binary32 bits).toNat = bits.toNat / 2 ^ 23 % 2 ^ 8 := by
  simp [UnpackedFloat.unpackExponent, BitVec.extractLsb_toNat, Nat.shiftRight_eq_div_pow]

theorem sign_field (bits : BitVec 32) :
    signBit (Sign.ofBitVec (@UnpackedFloat.unpackSign Format.binary32 bits)) =
      bits.toNat / 2 ^ 31 := by
  have field : (@UnpackedFloat.unpackSign Format.binary32 bits).toNat =
      bits.toNat / 2 ^ 31 % 2 := by
    simp [UnpackedFloat.unpackSign, BitVec.extractLsb_toNat, Nat.shiftRight_eq_div_pow]
  have small : bits.toNat < 2 ^ 32 := bits.isLt
  unfold Sign.ofBitVec
  split
  · next positive =>
    rw [positive] at field
    simp only [signBit]
    simp at field
    omega
  · next negative =>
    have bit : (@UnpackedFloat.unpackSign Format.binary32 bits).toNat ≠ 0 :=
      fun zero => negative (BitVec.eq_of_toNat_eq zero)
    simp only [signBit]
    omega

/-- What unpacking a finite value gives; the mantissa is as long as the exponent allows. -/
structure Canonical (bits : ℕ) (sign : Sign) (mantissa : ℕ) (exponent : ℤ) : Prop where
  encoded : bits = encoding sign mantissa exponent
  bound : mantissa < 2 ^ 24
  least : -149 ≤ exponent
  normal : -149 < exponent → 2 ^ 23 ≤ mantissa

theorem unpack_canonical (bits : BitVec 32) (sign : Sign) (mantissa : ℕ) (exponent : ℤ)
    (positive : 0 < mantissa)
    (unpacked : UnpackedFloat.unpack Format.binary32 bits =
      .finite sign mantissa exponent positive) :
    Canonical bits.toNat sign mantissa exponent := by
  have fraction := mantissa_field bits
  have biased := exponent_field bits
  have signed := sign_field bits
  have small : bits.toNat < 2 ^ 32 := bits.isLt
  have bias : Format.exponentBias Format.binary32 = 127 := rfl
  unfold UnpackedFloat.unpack at unpacked
  rw [bias] at unpacked
  simp only at unpacked
  split at unpacked
  · split at unpacked <;> cases unpacked
  · split at unpacked
    · next subnormal =>
      split at unpacked
      · cases unpacked
      · cases unpacked
        have zero : (@UnpackedFloat.unpackExponent Format.binary32 bits).toNat = 0 := by
          rw [subnormal]
          rfl
        rw [zero] at biased ⊢
        refine ⟨?_, by omega, by omega, by omega⟩
        rw [encoding, signed]
        omega
    · next normal =>
      cases unpacked
      have nonzero : (@UnpackedFloat.unpackExponent Format.binary32 bits).toNat ≠ 0 :=
        fun zero => normal (BitVec.eq_of_toNat_eq zero)
      have leading : (1#1 ++ @UnpackedFloat.unpackMantissa Format.binary32 bits).toNat =
          2 ^ 23 + (@UnpackedFloat.unpackMantissa Format.binary32 bits).toNat := by
        rw [BitVec.toNat_append, ← Nat.shiftLeft_add_eq_or_of_lt (BitVec.isLt _)]
        rfl
      refine ⟨?_, by omega, by omega, by omega⟩
      rw [encoding, signed]
      omega

/-- Equal numbers in canonical form have one mantissa: a longer exponent would need a mantissa
twice as long. -/
theorem canonical_exponent_le (first second : ℕ) (low high : ℤ) (bound : first < 2 ^ 24)
    (least : -149 ≤ low) (normal : -149 < high → 2 ^ 23 ≤ second)
    (same : (first : ℚ) * 2 ^ low = second * 2 ^ high) : high ≤ low := by
  by_contra longer
  obtain ⟨gap, rfl⟩ : ∃ gap : ℕ, high = low + (gap + 1) := ⟨(high - low - 1).toNat, by omega⟩
  have large : 2 ^ 23 ≤ second := normal (by omega)
  have scaled : (first : ℚ) = second * 2 ^ (gap + 1) := by
    have unit : (2 : ℚ) ^ low ≠ 0 := zpow_ne_zero low two_ne_zero
    apply mul_right_cancel₀ unit
    rw [same, zpow_add₀ two_ne_zero, ← Nat.cast_one, ← Nat.cast_add, zpow_natCast]
    ring
  have whole : first = second * 2 ^ (gap + 1) := by exact_mod_cast scaled
  have doubled : second * 2 ≤ second * 2 ^ (gap + 1) :=
    Nat.mul_le_mul_left second (Nat.le_self_pow gap.succ_ne_zero 2)
  omega

theorem sign_magnitude (sign other : Sign) (first second : ℕ) (low high : ℤ)
    (positive : 0 < first) (nonzero : 0 < second)
    (same : (sign.apply first : ℚ) * 2 ^ low = other.apply second * 2 ^ high) :
    sign = other ∧ (first : ℚ) * 2 ^ low = second * 2 ^ high := by
  have left : 0 < (first : ℚ) * 2 ^ low := by positivity
  have right : 0 < (second : ℚ) * 2 ^ high := by positivity
  cases sign <;> cases other <;> simp only [Sign.apply, Int.cast_neg, Int.cast_natCast] at same
  · exact ⟨rfl, by linarith⟩
  · linarith
  · linarith
  · exact ⟨rfl, same⟩

theorem canonical_unique (first second : ℕ) (sign other : Sign) (mantissa rest : ℕ)
    (exponent shift : ℤ) (left : Canonical first sign mantissa exponent)
    (right : Canonical second other rest shift) (positive : 0 < mantissa) (nonzero : 0 < rest)
    (same : (sign.apply mantissa : ℚ) * 2 ^ exponent = other.apply rest * 2 ^ shift) :
    first = second := by
  obtain ⟨rfl, magnitude⟩ := sign_magnitude sign other mantissa rest exponent shift positive
    nonzero same
  have upper := canonical_exponent_le mantissa rest exponent shift left.bound left.least
    right.normal magnitude
  have lower := canonical_exponent_le rest mantissa shift exponent right.bound right.least
    left.normal magnitude.symm
  obtain rfl : exponent = shift := le_antisymm lower upper
  have equal : (mantissa : ℚ) = rest := mul_right_cancel₀ (zpow_ne_zero exponent two_ne_zero)
    magnitude
  rw [left.encoded, right.encoded, Nat.cast_injective equal]

theorem exactValue_nonzero (value : Float32) (number : ℚ) (nonzero : number ≠ 0)
    (denotes : exactValue value = some number) : ∃ sign mantissa exponent,
      Canonical value.toModel.toBits.toBitVec.toNat sign mantissa exponent ∧ 0 < mantissa ∧
        number = sign.apply mantissa * 2 ^ exponent := by
  unfold exactValue at denotes
  cases unpacked : value.toModel.unpack with
  | finite sign mantissa exponent positive =>
      rw [unpacked] at denotes
      exact ⟨sign, mantissa, exponent, unpack_canonical _ sign mantissa exponent positive unpacked,
        positive, (Option.some.inj denotes).symm⟩
  | zero sign =>
      rw [unpacked] at denotes
      exact absurd (Option.some.inj denotes).symm nonzero
  | infinity sign =>
      rw [unpacked] at denotes
      cases denotes
  | notANumber =>
      rw [unpacked] at denotes
      cases denotes

theorem value_of_bits (first second : Float32)
    (same : first.toModel.toBits.toBitVec.toNat = second.toModel.toBits.toBitVec.toNat) :
    first = second := by
  obtain ⟨bits, valid⟩ := first
  obtain ⟨others, also⟩ := second
  obtain rfl : bits = others := UInt32.toNat_inj.mp same
  rfl

theorem exactValue_unique (first second : Float32) (number : ℚ) (nonzero : number ≠ 0)
    (denotes : exactValue first = some number) (also : exactValue second = some number) :
    first = second := by
  obtain ⟨sign, mantissa, exponent, left, positive, value⟩ :=
    exactValue_nonzero first number nonzero denotes
  obtain ⟨other, rest, shift, right, above, same⟩ :=
    exactValue_nonzero second number nonzero also
  exact value_of_bits first second (canonical_unique _ _ sign other mantissa rest exponent shift
    left right positive above (value.symm.trans same))

end SensorNode.BinaryValue
