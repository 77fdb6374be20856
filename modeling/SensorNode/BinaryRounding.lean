import Mathlib

/-!
Rounding to a binary format, from the bits that shifting a mantissa leaves behind to the rational
that the packed result denotes. A positive magnitude becomes the nearest multiple of the unit in
its last place, ties going to the even one.
-/

namespace SensorNode.BinaryRounding

open Float.Model
open Float.Model.UnpackedFloat (Sign Accuracy ExtendedMantissa accuracyOfFraction shiftToExponent
  shiftToTargetExponent roundWithAccuracy divCore)

/-! ## The nearest integer -/

def Nearest (number : ℚ) (integer : ℕ) : Prop :=
  |number - integer| ≤ 1 / 2 ∧ (|number - integer| = 1 / 2 → integer % 2 = 0)

theorem nearest_of_close (number : ℚ) (integer : ℕ) (close : |number - integer| < 1 / 2) :
    Nearest number integer :=
  ⟨close.le, fun tie => absurd tie close.ne⟩

theorem nearest_self (integer : ℕ) : Nearest integer integer :=
  nearest_of_close _ _ (by simp)

theorem nearest_unique (number : ℚ) (first second : ℕ) (one : Nearest number first)
    (other : Nearest number second) : first = second := by
  by_contra apart
  have distance : (1 : ℚ) ≤ |(first : ℚ) - second| := by
    have whole : (1 : ℤ) ≤ |(first : ℤ) - second| := Int.one_le_abs (by omega)
    exact_mod_cast whole
  have triangle : |(first : ℚ) - second| ≤ |number - first| + |number - second| := by
    have through := abs_sub_le (first : ℚ) number second
    rwa [abs_sub_comm (first : ℚ) number] at through
  have left : |number - first| = 1 / 2 := le_antisymm one.1 (by linarith [other.1])
  have right : |number - second| = 1 / 2 := le_antisymm other.1 (by linarith [one.1])
  -- Two integers at the same distance of a half are neighbours, and not both are even.
  have neighbours : |(first : ℤ) - second| ≤ 1 := by
    have close : |(first : ℚ) - second| ≤ 1 := by linarith
    exact_mod_cast close
  have evens := one.2 left
  have others := other.2 right
  rw [abs_le] at neighbours
  omega

theorem nearest_le (number : ℚ) (integer bound : ℕ) (nearest : Nearest number integer)
    (below : number ≤ bound) : integer ≤ bound := by
  have close := (abs_le.mp nearest.1).1
  have less : (integer : ℚ) < (bound + 1 : ℕ) := by
    push_cast
    linarith
  exact Nat.lt_succ_iff.mp (by exact_mod_cast less)

theorem le_nearest (number : ℚ) (integer bound : ℕ) (nearest : Nearest number integer)
    (above : bound ≤ number) : bound ≤ integer := by
  have close := (abs_le.mp nearest.1).2
  have less : (bound : ℚ) < (integer + 1 : ℕ) := by
    push_cast
    linarith
  exact Nat.lt_succ_iff.mp (by exact_mod_cast less)

/-! ## The residue of a shift -/

/-- The mantissa and its round bit are the number cut off at halves; the sticky bit says whether
anything was cut off. -/
structure Residue (extended : ExtendedMantissa) (number : ℚ) : Prop where
  low : 2 * (extended.mantissa : ℚ) + extended.roundBit.toNat ≤ 2 * number
  high : 2 * number < 2 * (extended.mantissa : ℚ) + extended.roundBit.toNat + 1
  sticky : extended.stickyBit = true ↔
    2 * (extended.mantissa : ℚ) + extended.roundBit.toNat < 2 * number

theorem residue_exact (mantissa : ℕ) :
    Residue (ExtendedMantissa.ofMantissaAndAccuracy mantissa .exact) mantissa := by
  constructor <;> simp [ExtendedMantissa.ofMantissaAndAccuracy]

theorem residue_half (extended : ExtendedMantissa) (number : ℚ)
    (residue : Residue extended number) : Residue extended.shiftRightOne (number / 2) := by
  obtain ⟨low, high, sticky⟩ := residue
  have split : 2 * ((extended.mantissa / 2 : ℕ) : ℚ) + (extended.mantissa % 2 : ℕ) =
      extended.mantissa := by
    exact_mod_cast Nat.div_add_mod extended.mantissa 2
  have bit : ((extended.mantissa % 2 != 0).toNat : ℚ) = (extended.mantissa % 2 : ℕ) := by
    rcases Nat.mod_two_eq_zero_or_one extended.mantissa with even | odd
    · simp [even]
    · simp [odd]
  have whole : 2 * (number / 2) = number := by ring
  cases round : extended.roundBit with
  | false =>
      rw [round] at low high sticky
      simp only [Bool.toNat_false, Nat.cast_zero, add_zero] at low high sticky
      constructor
      · simp only [ExtendedMantissa.shiftRightOne, bit, split, whole]
        linarith
      · simp only [ExtendedMantissa.shiftRightOne, bit, split, whole]
        linarith
      · simp only [ExtendedMantissa.shiftRightOne, bit, split, whole, round, Bool.false_or]
        rw [sticky]
        constructor <;> intro more <;> linarith
  | true =>
      rw [round] at low high sticky
      simp only [Bool.toNat_true, Nat.cast_one] at low high sticky
      constructor
      · simp only [ExtendedMantissa.shiftRightOne, bit, split, whole]
        linarith
      · simp only [ExtendedMantissa.shiftRightOne, bit, split, whole]
        linarith
      · simp only [ExtendedMantissa.shiftRightOne, bit, split, whole, round, Bool.true_or,
          true_iff]
        linarith

theorem residue_shift (extended : ExtendedMantissa) (number : ℚ) (count : ℕ)
    (residue : Residue extended number) : Residue (extended >>> count) (number / 2 ^ count) := by
  show Residue (count.repeat ExtendedMantissa.shiftRightOne extended) _
  induction count with
  | zero => simpa [Nat.repeat] using residue
  | succ count ih =>
      rw [Nat.repeat, pow_succ, ← div_div]
      exact residue_half _ _ ih

theorem residue_nearest (extended : ExtendedMantissa) (number : ℚ)
    (residue : Residue extended number) : Nearest number extended.roundedMantissa := by
  obtain ⟨low, high, sticky⟩ := residue
  obtain ⟨mantissa, round, rest⟩ := extended
  cases round with
  | false =>
      simp only [Bool.toNat_false, Nat.cast_zero, add_zero] at low high sticky
      have down : Nearest number mantissa := by
        apply nearest_of_close
        rw [abs_lt]
        constructor <;> linarith
      cases rest <;> exact down
  | true =>
      simp only [Bool.toNat_true, Nat.cast_one] at low high sticky
      cases rest with
      | false =>
          -- exactly half way: to the even neighbour
          have half : number = mantissa + 1 / 2 := by
            have still : ¬ (2 * (mantissa : ℚ) + 1 < 2 * number) := fun more =>
              Bool.false_ne_true (sticky.mpr more)
            linarith
          have rounded : ExtendedMantissa.roundedMantissa ⟨mantissa, true, false⟩ =
              mantissa + mantissa % 2 := rfl
          rw [rounded]
          rcases Nat.mod_two_eq_zero_or_one mantissa with even | odd
          · rw [even, add_zero, half]
            refine ⟨?_, fun _ => even⟩
            rw [add_sub_cancel_left]
            norm_num
          · rw [odd, half]
            refine ⟨?_, fun _ => by omega⟩
            push_cast
            rw [add_sub_add_left_eq_sub]
            norm_num
      | true =>
          have more := sticky.mp rfl
          show Nearest number (mantissa + 1)
          apply nearest_of_close
          push_cast
          rw [abs_lt]
          constructor <;> linarith

theorem residue_fraction (numerator denominator : ℕ) (positive : 0 < denominator) :
    Residue (ExtendedMantissa.ofMantissaAndAccuracy (numerator / denominator)
      (accuracyOfFraction (numerator % denominator) denominator))
      ((numerator : ℚ) / denominator) := by
  have scale : (0 : ℚ) < denominator := by exact_mod_cast positive
  have split : (numerator : ℚ) / denominator =
      (numerator / denominator : ℕ) + ((numerator % denominator : ℕ) : ℚ) / denominator := by
    rw [eq_comm, ← eq_sub_iff_add_eq', div_eq_iff scale.ne', sub_mul, div_mul_cancel₀ _ scale.ne',
      eq_sub_iff_add_eq']
    exact_mod_cast Nat.div_add_mod' numerator denominator
  have less : ((numerator % denominator : ℕ) : ℚ) < denominator := by
    exact_mod_cast Nat.mod_lt numerator positive
  rw [split]
  generalize numerator / denominator = whole
  generalize numerator % denominator = rest at less
  unfold accuracyOfFraction
  by_cases none : rest = 0
  · rw [if_pos none, none]
    simpa using residue_exact whole
  · rw [if_neg none]
    have some' : (0 : ℚ) < rest := by exact_mod_cast Nat.pos_of_ne_zero none
    have above : 0 < (rest : ℚ) / denominator := div_pos some' scale
    have below : (rest : ℚ) / denominator < 1 := (div_lt_one scale).mpr less
    rcases lt_trichotomy (2 * rest) denominator with small | half | large
    · have place : (rest : ℚ) / denominator < 1 / 2 := by
        rw [div_lt_iff₀ scale]
        have scaled : (2 * rest : ℚ) < denominator := by exact_mod_cast small
        linarith
      rw [Nat.compare_eq_lt.mpr small]
      constructor <;> simp [ExtendedMantissa.ofMantissaAndAccuracy] <;> linarith
    · have place : (rest : ℚ) / denominator = 1 / 2 := by
        rw [div_eq_iff scale.ne']
        have scaled : (2 * rest : ℚ) = denominator := by exact_mod_cast half
        linarith
      rw [Nat.compare_eq_eq.mpr half, place]
      constructor <;> simp [ExtendedMantissa.ofMantissaAndAccuracy] <;> linarith
    · have place : 1 / 2 < (rest : ℚ) / denominator := by
        rw [lt_div_iff₀ scale]
        have scaled : (denominator : ℚ) < 2 * rest := by exact_mod_cast large
        linarith
      rw [Nat.compare_eq_gt.mpr large]
      constructor <;> simp [ExtendedMantissa.ofMantissaAndAccuracy] <;> linarith

theorem residue_bounds (mantissa : ℕ) (accuracy : Accuracy) (number : ℚ)
    (residue : Residue (ExtendedMantissa.ofMantissaAndAccuracy mantissa accuracy) number) :
    (mantissa : ℚ) ≤ number ∧ number < mantissa + 1 := by
  have same : (ExtendedMantissa.ofMantissaAndAccuracy mantissa accuracy).mantissa = mantissa := by
    cases accuracy with
    | exact => rfl
    | inexact place => cases place <;> rfl
  obtain ⟨low, high, -⟩ := residue
  rw [same] at low high
  have bit : (0 : ℚ) ≤
      (ExtendedMantissa.ofMantissaAndAccuracy mantissa accuracy).roundBit.toNat := Nat.cast_nonneg _
  have most : ((ExtendedMantissa.ofMantissaAndAccuracy mantissa accuracy).roundBit.toNat : ℚ) ≤
      1 := by
    exact_mod_cast Bool.toNat_le _
  constructor <;> linarith

/-! ## Rounding to the places of a format -/

section
variable (spec : Format)

/-- The bits after the leading one. -/
abbrev places : ℕ := spec.mantissaBitsWithoutImplicit

theorem mantissaBits_eq : spec.mantissaBits = places spec + 1 := Nat.add_comm 1 _

/-- The exponent of the last place of numbers from `2 ^ log` on. -/
def lastPlace (log : ℤ) : ℤ := max (log - places spec) spec.minExponent

theorem lastPlace_least (log : ℤ) : spec.minExponent ≤ lastPlace spec log := le_max_right _ _

theorem targetExponent_eq (mantissa : ℕ) (exponent : ℤ) :
    spec.targetExponent (totalExponent mantissa exponent) =
      lastPlace spec (mantissa.log2 + exponent) := by
  simp only [Format.targetExponent, totalExponent, Format.mantissaBits, lastPlace]
  congr 1
  push_cast
  ring

structure Normalized (mantissa : ℕ) (exponent : ℤ) : Prop where
  bound : mantissa < 2 ^ (places spec + 1)
  least : spec.minExponent ≤ exponent
  normal : spec.minExponent < exponent → 2 ^ places spec ≤ mantissa

/-- A magnitude as a float in canonical form. -/
inductive Settled (sign : Sign) (magnitude : ℚ) : UnpackedFloat → Prop where
  | zero (none : magnitude = 0) : Settled sign magnitude (.zero sign)
  | finite (mantissa : ℕ) (exponent : ℤ) (positive : 0 < mantissa)
      (normalized : Normalized spec mantissa exponent)
      (same : magnitude = mantissa * 2 ^ exponent) :
      Settled sign magnitude (.finite sign mantissa exponent positive)

theorem shiftToTarget_eq (mantissa : ℕ) (exponent : ℤ) (accuracy : Accuracy) :
    shiftToTargetExponent spec mantissa exponent accuracy =
      (ExtendedMantissa.ofMantissaAndAccuracy mantissa accuracy >>>
          (lastPlace spec (mantissa.log2 + exponent) - exponent).toNat,
        exponent + (lastPlace spec (mantissa.log2 + exponent) - exponent).toNat) := by
  rw [shiftToTargetExponent, targetExponent_eq]
  rfl

theorem roundWithAccuracy_eq (sign : Sign) (mantissa : ℕ) (exponent : ℤ) (accuracy : Accuracy)
    (extended : ExtendedMantissa) (place : ℤ) (final : ExtendedMantissa) (last : ℤ)
    (first : shiftToTargetExponent spec mantissa exponent accuracy = (extended, place))
    (second : shiftToTargetExponent spec extended.roundedMantissa place .exact = (final, last)) :
    roundWithAccuracy spec sign mantissa exponent accuracy =
      if none : final.mantissa = 0 then .zero sign
      else .finite sign final.mantissa last (Nat.pos_of_ne_zero none) := by
  simp only [roundWithAccuracy, first, second]

/-- The second shift moves nothing unless rounding has carried into one more bit. -/
theorem settled_rounded (sign : Sign) (mantissa : ℕ) (exponent : ℤ) (accuracy : Accuracy)
    (extended : ExtendedMantissa) (place : ℤ) (least : spec.minExponent ≤ place)
    (first : shiftToTargetExponent spec mantissa exponent accuracy = (extended, place))
    (bound : extended.roundedMantissa ≤ 2 ^ (places spec + 1))
    (normal : spec.minExponent < place →
      2 ^ places spec ≤ extended.roundedMantissa) :
    Settled spec sign (extended.roundedMantissa * 2 ^ place)
      (roundWithAccuracy spec sign mantissa exponent accuracy) := by
  have second := shiftToTarget_eq spec extended.roundedMantissa place .exact
  rw [roundWithAccuracy_eq spec sign mantissa exponent accuracy extended place _ _ first second]
  generalize extended.roundedMantissa = count at *
  -- A carry leaves a power of two, and the second shift drops its last bit.
  by_cases carried : count = 2 ^ (places spec + 1)
  · subst carried
    have log : (2 ^ (places spec + 1) : ℕ).log2 =
        places spec + 1 := Nat.log2_two_pow
    have shift : (lastPlace spec ((2 ^ (places spec + 1) : ℕ).log2 + place) -
        place).toNat = 1 := by
      rw [log, lastPlace]
      push_cast
      omega
    rw [shift]
    have half : (ExtendedMantissa.ofMantissaAndAccuracy
        (2 ^ (places spec + 1)) .exact >>> 1).mantissa =
          2 ^ places spec := by
      show 2 ^ (places spec + 1) / 2 = _
      rw [pow_succ, Nat.mul_div_cancel _ two_pos]
    rw [dif_neg (by rw [half]; exact (Nat.two_pow_pos _).ne')]
    simp only [half]
    refine .finite _ _ _ ⟨Nat.pow_lt_pow_succ (by decide), by omega, fun _ => le_rfl⟩ ?_
    rw [Nat.cast_one, zpow_add₀ two_ne_zero]
    push_cast
    ring
  · have less : count < 2 ^ (places spec + 1) := by omega
    have log : count.log2 ≤ places spec := by
      by_cases none : count = 0
      · rw [none]
        exact Nat.zero_le _
      · exact Nat.lt_succ_iff.mp ((Nat.log2_lt none).mpr less)
    have shift : (lastPlace spec (count.log2 + place) - place).toNat = 0 := by
      rw [lastPlace]
      omega
    rw [shift]
    have still : (ExtendedMantissa.ofMantissaAndAccuracy count .exact >>> 0).mantissa = count := rfl
    by_cases none : count = 0
    · rw [dif_pos (still.trans none)]
      exact .zero (by rw [none, Nat.cast_zero, zero_mul])
    · rw [dif_neg (by rw [still]; exact none)]
      simp only [still]
      refine .finite _ _ _ ⟨less, by omega, fun above => normal (by simpa using above)⟩ ?_
      simp

theorem round_nearest (sign : Sign) (mantissa : ℕ) (exponent : ℤ) (accuracy : Accuracy)
    (number : ℚ) (positive : 0 < mantissa)
    (residue : Residue (ExtendedMantissa.ofMantissaAndAccuracy mantissa accuracy) number)
    (fits : exponent ≤ lastPlace spec (mantissa.log2 + exponent)) :
    ∃ count, Nearest (number * 2 ^ exponent / 2 ^ lastPlace spec (mantissa.log2 + exponent)) count ∧
      Settled spec sign (count * 2 ^ lastPlace spec (mantissa.log2 + exponent))
        (roundWithAccuracy spec sign mantissa exponent accuracy) := by
  obtain ⟨low, high⟩ := residue_bounds mantissa accuracy number residue
  have first := shiftToTarget_eq spec mantissa exponent accuracy
  obtain ⟨shift, size⟩ : ∃ shift : ℕ,
      lastPlace spec (mantissa.log2 + exponent) = exponent + shift :=
    ⟨(lastPlace spec (mantissa.log2 + exponent) - exponent).toNat, by omega⟩
  have amount : (lastPlace spec (mantissa.log2 + exponent) - exponent).toNat = shift := by omega
  have least := lastPlace_least spec (mantissa.log2 + exponent)
  rw [amount] at first
  rw [size] at least ⊢
  have scaled : number * 2 ^ exponent / 2 ^ (exponent + shift : ℤ) = number / 2 ^ shift := by
    have unit : (2 : ℚ) ^ exponent ≠ 0 := zpow_ne_zero exponent two_ne_zero
    rw [zpow_add₀ two_ne_zero, zpow_natCast, mul_comm number, mul_div_mul_left _ _ unit]
  have nearest := residue_nearest _ _ (residue_shift _ _ shift residue)
  refine ⟨_, scaled ▸ nearest,
    settled_rounded spec sign mantissa exponent accuracy _ _ least first ?_ ?_⟩
  · -- the number has no more bits than the mantissa
    have bits : number / 2 ^ shift ≤ 2 ^ (places spec + 1) := by
      have power : (mantissa + 1 : ℚ) ≤ 2 ^ (mantissa.log2 + 1) := by
        exact_mod_cast Nat.lt_log2_self (n := mantissa)
      have room : mantissa.log2 + 1 ≤ places spec + 1 + shift := by
        rw [lastPlace] at size
        omega
      have longer : (2 : ℚ) ^ (mantissa.log2 + 1) ≤ 2 ^ (places spec + 1 + shift) :=
        pow_le_pow_right₀ one_le_two room
      rw [div_le_iff₀ (by positivity), ← pow_add]
      linarith
    exact nearest_le _ _ _ nearest (by exact_mod_cast bits)
  · intro above
    have bits : 2 ^ places spec ≤ number / 2 ^ shift := by
      have power : (2 : ℚ) ^ mantissa.log2 ≤ mantissa := by
        exact_mod_cast Nat.log2_self_le positive.ne'
      have same : mantissa.log2 = places spec + shift := by
        rw [lastPlace] at size
        omega
      rw [le_div_iff₀ (by positivity), ← pow_add, ← same]
      linarith
    exact le_nearest _ _ _ nearest (by exact_mod_cast bits)

theorem log2_shiftLeft (mantissa shift : ℕ) (positive : 0 < mantissa) :
    (mantissa <<< shift).log2 = mantissa.log2 + shift := by
  rw [Nat.shiftLeft_eq, Nat.log2_eq_iff (by positivity), pow_add, pow_succ, pow_add, mul_right_comm]
  exact ⟨Nat.mul_le_mul_right _ (Nat.log2_self_le positive.ne'),
    Nat.mul_lt_mul_of_pos_right Nat.lt_log2_self (Nat.two_pow_pos shift)⟩

theorem round_exact (sign : Sign) (mantissa : ℕ) (exponent : ℤ) (positive : 0 < mantissa)
    (short : mantissa.log2 ≤ places spec)
    (least : spec.minExponent ≤ mantissa.log2 + exponent - places spec) :
    Settled spec sign (mantissa * 2 ^ exponent)
      (UnpackedFloat.round spec sign mantissa exponent) := by
  obtain ⟨shift, size⟩ : ∃ shift : ℕ, places spec = mantissa.log2 + shift :=
    Nat.exists_eq_add_of_le short
  have target : spec.targetExponent (totalExponent mantissa exponent) = exponent - shift := by
    rw [targetExponent_eq, lastPlace]
    omega
  have amount : (exponent - (exponent - shift)).toNat = shift := by omega
  have longer : 0 < mantissa <<< shift := by
    rw [Nat.shiftLeft_eq]
    positivity
  have place : lastPlace spec ((mantissa <<< shift).log2 + (exponent - shift)) =
      exponent - shift := by
    rw [log2_shiftLeft mantissa shift positive, lastPlace]
    omega
  obtain ⟨count, nearest, settled⟩ := round_nearest spec sign (mantissa <<< shift)
    (exponent - shift) .exact _ longer (residue_exact _) place.ge
  have unit : (2 : ℚ) ^ (exponent - shift) ≠ 0 := zpow_ne_zero _ two_ne_zero
  rw [place, mul_div_cancel_right₀ _ unit] at nearest
  obtain rfl := nearest_unique _ _ _ nearest (nearest_self _)
  have same : ((mantissa <<< shift : ℕ) : ℚ) * 2 ^ (exponent - shift) =
      mantissa * 2 ^ exponent := by
    rw [Nat.shiftLeft_eq, zpow_sub₀ two_ne_zero, zpow_natCast]
    push_cast
    field_simp
  rw [place, same] at settled
  simp only [UnpackedFloat.round, target, UnpackedFloat.decreaseExponent, amount]
  exact settled

/-! ## Packing -/

theorem sign_packComponents (sign : Sign) (exponent : BitVec spec.exponentBits)
    (mantissa : BitVec (places spec)) :
    UnpackedFloat.unpackSign (UnpackedFloat.packComponents spec sign exponent mantissa) =
      sign.toBitVec := by
  apply BitVec.eq_of_getLsbD_eq
  intro i inside
  obtain rfl : i = 0 := by omega
  simp [UnpackedFloat.unpackSign, UnpackedFloat.packComponents, BitVec.getLsbD_append,
    BitVec.getElem_append]

theorem sign_toBitVec (sign : Sign) : Sign.ofBitVec sign.toBitVec = sign := by
  cases sign <;> rfl

/-- The exponent of the last place of the largest numbers. -/
def topPlace : ℤ := spec.exponentBias - places spec

theorem exponentRange : 2 ^ spec.exponentBits = 2 * (spec.exponentBias + 1) := by
  have bits : spec.exponentBits = spec.exponentBits - 1 + 1 := by
    have some' := spec.he
    omega
  have least : 0 < 2 ^ (spec.exponentBits - 1) := Nat.two_pow_pos _
  rw [bits, pow_succ, Format.exponentBias]
  omega

theorem minExponent_eq : spec.minExponent = 1 - spec.exponentBias - places spec := by
  have range := exponentRange spec
  have bits : spec.exponentBits = spec.exponentBits - 1 + 1 := by
    have some' := spec.he
    omega
  rw [bits, pow_succ] at range
  have half : 2 ^ (spec.exponentBits - 1) = spec.exponentBias + 1 := by omega
  have whole : (2 : ℤ) ^ (spec.exponentBits - 1) = spec.exponentBias + 1 := by exact_mod_cast half
  rw [Format.minExponent, whole, mantissaBits_eq]
  push_cast
  ring

theorem unpack_pack (sign : Sign) (mantissa : ℕ) (exponent : ℤ) (positive : 0 < mantissa)
    (normalized : Normalized spec mantissa exponent) (most : exponent ≤ topPlace spec) :
    UnpackedFloat.unpack spec
      (UnpackedFloat.pack spec (.finite sign mantissa exponent positive)) =
        .finite sign mantissa exponent positive := by
  obtain ⟨bound, least, normal⟩ := normalized
  rw [minExponent_eq] at least normal
  rw [topPlace] at most
  have range := exponentRange spec
  obtain ⟨biased, size⟩ : ∃ biased : ℕ, exponent = biased - spec.exponentBias - places spec :=
    ⟨(exponent + spec.exponentBias + places spec).toNat, by omega⟩
  have amount : (exponent + spec.exponentBias + places spec).toNat = biased := by omega
  have field : (BitVec.ofNat spec.exponentBits biased).toNat = biased := by
    rw [BitVec.toNat_ofNat]
    exact Nat.mod_eq_of_lt (by omega)
  have all : (-BitVec.ofNat spec.exponentBits 1).toNat = 2 * spec.exponentBias + 1 := by
    rw [BitVec.neg_one_eq_allOnes, BitVec.toNat_allOnes, range]
    omega
  simp only [UnpackedFloat.pack, amount]
  rw [if_neg (by omega)]
  by_cases full : mantissa.log2 + 1 = spec.mantissaBits
  -- A normal number: the leading bit is not stored and comes back as one.
  · rw [if_pos full]
    have low : 2 ^ places spec ≤ mantissa := by
      have log : mantissa.log2 = places spec := by
        rw [mantissaBits_eq] at full
        omega
      exact log ▸ Nat.log2_self_le positive.ne'
    have fraction : (BitVec.ofNat (places spec) mantissa).toNat = mantissa - 2 ^ places spec := by
      rw [BitVec.toNat_ofNat, Nat.mod_eq_sub_mod low, Nat.mod_eq_of_lt]
      rw [pow_succ] at bound
      omega
    have leading : (1#1 ++ BitVec.ofNat (places spec) mantissa).toNat = mantissa := by
      have one : (1#1 : BitVec 1).toNat = 1 := rfl
      rw [BitVec.toNat_append, ← Nat.shiftLeft_add_eq_or_of_lt (BitVec.isLt _), fraction, one,
        Nat.one_shiftLeft]
      omega
    simp only [UnpackedFloat.unpack, UnpackedFloat.unpackExponent_packComponents,
      UnpackedFloat.unpackMantissa_packComponents, sign_packComponents, sign_toBitVec]
    have ones : BitVec.ofNat spec.exponentBits biased ≠ -BitVec.ofNat spec.exponentBits 1 := by
      intro same
      have value := field.symm.trans ((congrArg BitVec.toNat same).trans all)
      omega
    have zero : BitVec.ofNat spec.exponentBits biased ≠ BitVec.ofNat spec.exponentBits 0 := by
      intro same
      have value := field.symm.trans ((congrArg BitVec.toNat same).trans BitVec.toNat_zero)
      omega
    rw [if_neg ones, if_neg zero]
    simp only [leading, field]
    congr 1
    show (biased : ℤ) - (spec.exponentBias + places spec) = exponent
    omega
  · rw [if_neg full]
    have high : mantissa < 2 ^ places spec := by
      by_contra above
      have log : places spec ≤ mantissa.log2 := (Nat.le_log2 positive.ne').mpr (by omega)
      have most := (Nat.log2_lt positive.ne').mpr bound
      rw [mantissaBits_eq] at full
      omega
    -- A subnormal number: it has the least exponent, and a zero in its place.
    have lowest : exponent = 1 - spec.exponentBias - places spec := by
      by_contra above
      have long := normal (by omega)
      omega
    have fraction : (BitVec.ofNat (places spec) mantissa).toNat = mantissa := by
      rw [BitVec.toNat_ofNat]
      exact Nat.mod_eq_of_lt high
    have none : BitVec.ofNat spec.exponentBits 0 ≠ -BitVec.ofNat spec.exponentBits 1 := by
      intro same
      have value := (congrArg BitVec.toNat same).trans all
      rw [BitVec.toNat_zero] at value
      omega
    simp only [UnpackedFloat.unpack, UnpackedFloat.unpackExponent_packComponents,
      UnpackedFloat.unpackMantissa_packComponents, sign_packComponents, sign_toBitVec]
    rw [if_neg none, if_pos trivial]
    split
    · next zero =>
      have value := fraction.symm.trans ((congrArg BitVec.toNat zero).trans BitVec.toNat_zero)
      omega
    · simp only [fraction, BitVec.toNat_zero]
      congr 1
      show ((0 : ℕ) : ℤ) - (spec.exponentBias + places spec) + 1 = exponent
      omega

theorem unpack_pack_zero (wide : 1 < spec.exponentBits) (sign : Sign) :
    UnpackedFloat.unpack spec (UnpackedFloat.pack spec (.zero sign)) = .zero sign := by
  have none : (0 : BitVec spec.exponentBits) ≠ -BitVec.ofNat spec.exponentBits 1 := by
    intro same
    have value := congrArg BitVec.toNat same
    rw [BitVec.neg_one_eq_allOnes, BitVec.toNat_allOnes] at value
    have power : 2 ^ 1 < 2 ^ spec.exponentBits := Nat.pow_lt_pow_right (by decide) wide
    simp at value
    omega
  simp only [UnpackedFloat.pack, UnpackedFloat.packedZero, UnpackedFloat.unpack,
    UnpackedFloat.unpackExponent_packComponents, UnpackedFloat.unpackMantissa_packComponents,
    sign_packComponents, sign_toBitVec]
  rw [if_neg none]
  exact (if_pos rfl).trans (dif_pos rfl)

/-- The sign and the magnitude of a finite value. -/
inductive Denotes : UnpackedFloat → Sign → ℚ → Prop where
  | zero (sign : Sign) : Denotes (.zero sign) sign 0
  | finite (sign : Sign) (mantissa : ℕ) (exponent : ℤ) (positive : 0 < mantissa) :
      Denotes (.finite sign mantissa exponent positive) sign (mantissa * 2 ^ exponent)

/-- What is packed is what was rounded, as long as it is no larger than the format allows. -/
theorem settled_denotes (wide : 1 < spec.exponentBits) (sign : Sign) (magnitude : ℚ)
    (value : UnpackedFloat) (settled : Settled spec sign magnitude value)
    (inside : magnitude < 2 ^ (topPlace spec + places spec + 1)) :
    Denotes (UnpackedFloat.unpack spec (UnpackedFloat.pack spec value)) sign magnitude := by
  cases settled with
  | zero none =>
      rw [unpack_pack_zero spec wide, none]
      exact .zero sign
  | finite mantissa exponent positive normalized same =>
      have most : exponent ≤ topPlace spec := by
        by_contra above
        have range : 2 ^ 2 ≤ 2 ^ spec.exponentBits := Nat.pow_le_pow_right (by decide) wide
        rw [exponentRange] at range
        have long := normalized.normal (by rw [minExponent_eq]; rw [topPlace] at above; omega)
        have power : (2 : ℚ) ^ places spec ≤ mantissa := by exact_mod_cast long
        have low : (2 : ℚ) ^ (topPlace spec + places spec + 1) ≤ mantissa * 2 ^ exponent := by
          calc (2 : ℚ) ^ (topPlace spec + places spec + 1)
              ≤ 2 ^ (places spec + exponent : ℤ) := zpow_le_zpow_right₀ one_le_two (by omega)
            _ = 2 ^ places spec * 2 ^ exponent := by rw [zpow_add₀ two_ne_zero, zpow_natCast]
            _ ≤ mantissa * 2 ^ exponent :=
                mul_le_mul_of_nonneg_right power (zpow_pos two_pos exponent).le
        linarith
      rw [unpack_pack spec sign mantissa exponent positive normalized most, same]
      exact .finite sign mantissa exponent positive

/-! ## Numbers rounded to the nearest value -/

/-- A number of the binade whose last place is given. -/
structure Binade (number : ℚ) (place : ℤ) : Prop where
  low : 2 ^ (place + places spec) ≤ number
  high : number < 2 ^ (place + places spec + 1)

/-- A number and the magnitude of the value it is rounded to. -/
structure Rounds (number : ℚ) (count : ℕ) (place : ℤ) : Prop where
  binade : Binade spec number place
  nearest : Nearest (number / 2 ^ place) count

/-- Half a unit in the last place above the largest value. -/
def overflow : ℚ := (2 ^ (places spec + 1) - 1 / 2) * 2 ^ topPlace spec

theorem rounds_error (number : ℚ) (count : ℕ) (place : ℤ)
    (rounds : Rounds spec number count place) :
    |number - count * 2 ^ place| ≤ 2 ^ place / 2 := by
  have unit : (0 : ℚ) < 2 ^ place := zpow_pos two_pos place
  have scaled : number - count * 2 ^ place = (number / 2 ^ place - count) * 2 ^ place := by
    field_simp
  rw [scaled, abs_mul, abs_of_pos unit]
  have half := mul_le_mul_of_nonneg_right rounds.nearest.1 unit.le
  linarith

theorem binade_unique (number : ℚ) (first second : ℤ) (one : Binade spec number first)
    (other : Binade spec number second) : first = second := by
  have up := (zpow_lt_zpow_iff_right₀ (one_lt_two : (1 : ℚ) < 2)).mp (one.low.trans_lt other.high)
  have down := (zpow_lt_zpow_iff_right₀ (one_lt_two : (1 : ℚ) < 2)).mp (other.low.trans_lt one.high)
  omega

/-- Rounding does not leave the range of the format below the overflow threshold. -/
theorem rounds_inside (number : ℚ) (count : ℕ) (place : ℤ) (rounds : Rounds spec number count place)
    (below : number < overflow spec) :
    (count : ℚ) * 2 ^ place < 2 ^ (topPlace spec + places spec + 1) := by
  obtain ⟨binade, nearest⟩ := rounds
  have unit : (0 : ℚ) < 2 ^ place := zpow_pos two_pos place
  have top : (2 : ℚ) ^ (topPlace spec + places spec + 1) =
      2 ^ (places spec + 1) * 2 ^ topPlace spec := by
    rw [add_assoc, zpow_add₀ two_ne_zero, mul_comm]
    norm_cast
  have less : number < 2 ^ (topPlace spec + places spec + 1) := by
    have unit : (0 : ℚ) < 2 ^ topPlace spec := zpow_pos two_pos _
    rw [overflow, sub_mul] at below
    linarith
  have most : place ≤ topPlace spec := by
    have power := (zpow_lt_zpow_iff_right₀ (one_lt_two : (1 : ℚ) < 2)).mp (binade.low.trans_lt less)
    omega
  rcases most.lt_or_eq with lower | rfl
  · have bits : number / 2 ^ place ≤ ((2 ^ (places spec + 1) : ℕ) : ℚ) := by
      rw [div_le_iff₀ unit]
      push_cast
      rw [← zpow_natCast, ← zpow_add₀ two_ne_zero, add_comm]
      push_cast
      rw [← add_assoc]
      exact binade.high.le
    have filled : (count : ℚ) ≤ 2 ^ (places spec + 1) := by
      exact_mod_cast nearest_le _ _ _ nearest bits
    rw [top]
    exact mul_lt_mul' filled (zpow_lt_zpow_right₀ one_lt_two lower) unit.le (by positivity)
  · have half : number / 2 ^ topPlace spec < 2 ^ (places spec + 1) - 1 / 2 := by
      rw [div_lt_iff₀ unit]
      exact below
    have close := (abs_le.mp nearest.1).1
    rw [top]
    exact mul_lt_mul_of_pos_right (by linarith) unit

theorem binade_scaled (mantissa : ℕ) (number : ℚ) (exponent : ℤ) (positive : 0 < mantissa)
    (low : (mantissa : ℚ) ≤ number) (high : number < mantissa + 1) :
    Binade spec (number * 2 ^ exponent) (mantissa.log2 + exponent - places spec) := by
  have unit : (0 : ℚ) < 2 ^ exponent := zpow_pos two_pos exponent
  constructor
  · have power : (2 : ℚ) ^ mantissa.log2 ≤ mantissa := by
      exact_mod_cast Nat.log2_self_le positive.ne'
    rw [sub_add_cancel, zpow_add₀ two_ne_zero, zpow_natCast]
    exact mul_le_mul_of_nonneg_right (power.trans low) unit.le
  · have power : (mantissa + 1 : ℚ) ≤ 2 ^ (mantissa.log2 + 1) := by
      exact_mod_cast Nat.lt_log2_self (n := mantissa)
    have place : (mantissa.log2 : ℤ) + exponent + 1 = (mantissa.log2 + 1 : ℕ) + exponent := by
      push_cast
      ring
    rw [sub_add_cancel, place, zpow_add₀ two_ne_zero, zpow_natCast]
    exact mul_lt_mul_of_pos_right (high.trans_le power) unit

/-! ## Quotients -/

theorem div_rounds (first second : Sign) (numerator denominator : ℕ) (upper lower : ℤ)
    (positive : 0 < numerator) (nonzero : 0 < denominator)
    (range : spec.minExponent + places spec < numerator.log2 + upper - (denominator.log2 + lower)) :
    ∃ count place,
      Rounds spec ((numerator * 2 ^ upper : ℚ) / (denominator * 2 ^ lower)) count place ∧
      Settled spec (first / second) (count * 2 ^ place) (UnpackedFloat.div spec
        (.finite first numerator upper positive) (.finite second denominator lower nonzero)) := by
  obtain ⟨shift, size⟩ : ∃ shift : ℕ,
      min (upper - lower) (numerator.log2 + upper - (denominator.log2 + lower) - places spec - 1) =
        upper - lower - shift :=
    ⟨(upper - lower - min (upper - lower)
      (numerator.log2 + upper - (denominator.log2 + lower) - places spec - 1)).toNat, by omega⟩
  have target : min (upper - lower) (spec.targetExponent
      (totalExponent numerator upper - totalExponent denominator lower)) =
        upper - lower - shift := by
    rw [← size]
    simp only [Format.targetExponent, totalExponent, mantissaBits_eq]
    push_cast
    omega
  have amount : (upper - lower - (upper - lower - (shift : ℤ))).toNat = shift := by omega
  have core : divCore spec numerator upper denominator lower =
      (numerator <<< shift / denominator, upper - lower - (shift : ℤ),
        accuracyOfFraction (numerator <<< shift % denominator) denominator) := by
    simp only [divCore, target, amount]
  have residue := residue_fraction (numerator <<< shift) denominator nonzero
  obtain ⟨low, high⟩ := residue_bounds _ _ _ residue
  -- The dividend is long enough for the quotient to fill the mantissa.
  have room : places spec + (denominator.log2 + 1) ≤ numerator.log2 + shift := by omega
  obtain ⟨spare, longer⟩ := Nat.exists_eq_add_of_le room
  have long : 2 ^ (places spec + spare) ≤ numerator <<< shift / denominator := by
    rw [Nat.le_div_iff_mul_le nonzero, Nat.shiftLeft_eq]
    calc 2 ^ (places spec + spare) * denominator
        ≤ 2 ^ (places spec + spare) * 2 ^ (denominator.log2 + 1) :=
          Nat.mul_le_mul_left _ (Nat.lt_log2_self (n := denominator)).le
      _ = 2 ^ (numerator.log2 + shift) := by
          rw [← pow_add, longer]
          ring
      _ = 2 ^ numerator.log2 * 2 ^ shift := pow_add 2 _ _
      _ ≤ numerator * 2 ^ shift :=
          Nat.mul_le_mul_right _ (Nat.log2_self_le positive.ne')
  have exact' : (numerator * 2 ^ upper : ℚ) / (denominator * 2 ^ lower) =
      ((numerator <<< shift : ℕ) : ℚ) / denominator * 2 ^ (upper - lower - (shift : ℤ)) := by
    have unit : (denominator : ℚ) ≠ 0 := Nat.cast_ne_zero.mpr nonzero.ne'
    rw [Nat.shiftLeft_eq, zpow_sub₀ two_ne_zero, zpow_sub₀ two_ne_zero, zpow_natCast]
    push_cast
    field_simp
  have quotient : 0 < numerator <<< shift / denominator := (Nat.two_pow_pos _).trans_le long
  have log : places spec + spare ≤ (numerator <<< shift / denominator).log2 :=
    (Nat.le_log2 quotient.ne').mpr long
  have place : lastPlace spec
      ((numerator <<< shift / denominator).log2 + (upper - lower - (shift : ℤ))) =
        (numerator <<< shift / denominator).log2 + (upper - lower - (shift : ℤ)) - places spec := by
    rw [lastPlace]
    omega
  have binade := binade_scaled spec _ _ (upper - lower - (shift : ℤ)) quotient low high
  rw [← exact', ← place] at binade
  obtain ⟨count, nearest, settled⟩ := round_nearest spec (first / second) _
    (upper - lower - (shift : ℤ)) _ _ quotient residue (by omega)
  rw [← exact'] at nearest
  refine ⟨count, _, ⟨binade, nearest⟩, ?_⟩
  simp only [UnpackedFloat.div, core]
  exact settled

/-! ## Decimals -/

theorem ofScientific_rounds (mantissa digits : ℕ) (positive : 0 < mantissa) (some' : 0 < digits)
    (few : digits ≤ 2 ^ spec.exponentBits)
    (range : spec.minExponent + places spec < (mantissa.log2 : ℤ) - (10 ^ digits).log2) :
    ∃ count place, Rounds spec ((mantissa : ℚ) / 10 ^ digits) count place ∧
      Settled spec .positive (count * 2 ^ place)
        (UnpackedFloat.ofScientific spec mantissa (-digits)) := by
  have scale : 0 < 10 ^ digits := Nat.pow_pos (by decide)
  have unpacked : UnpackedFloat.ofScientific spec mantissa (-digits) =
      UnpackedFloat.div spec (.finite .positive mantissa 0 positive)
        (.finite .positive (10 ^ digits) 0 scale) := by
    have limit : (digits : ℤ) ≤ 2 ^ spec.exponentBits := by exact_mod_cast few
    rw [UnpackedFloat.ofScientific, dif_neg positive.ne', if_neg (by omega),
      if_neg (by omega), if_neg (by omega)]
    simp only [neg_neg, Int.toNat_natCast]
  rw [unpacked]
  obtain ⟨count, place, rounds, settled⟩ := div_rounds spec .positive .positive mantissa
    (10 ^ digits) 0 0 positive scale (by omega)
  refine ⟨count, place, ?_, settled⟩
  simpa using rounds

end

end SensorNode.BinaryRounding
