import Mathlib
import SensorNode.BinaryRounding
import SensorNode.BinaryValue

/-!
Sums, products and quotients of floats: each is the exact result rounded to the nearest value of
the format, so a result that the format has is exact and any other is off by at most half a unit in
its last place. The order of values is the order of the numbers they denote.
-/

namespace SensorNode.BinaryArithmetic

open BinaryRounding BinaryValue
open Float.Model (Format UnpackedFloat)
open Float.Model.UnpackedFloat (Sign ExtendedMantissa)

def signed : Sign → ℚ → ℚ
  | .positive, magnitude => magnitude
  | .negative, magnitude => -magnitude

theorem apply_signed (sign : Sign) (mantissa : ℕ) (exponent : ℤ) :
    (sign.apply mantissa : ℚ) * 2 ^ exponent = signed sign (mantissa * 2 ^ exponent) := by
  cases sign <;> simp [Sign.apply, signed]

theorem abs_signed (sign : Sign) (magnitude : ℚ) (nonneg : 0 ≤ magnitude) :
    |signed sign magnitude| = magnitude := by
  cases sign <;> simp [signed, abs_of_nonneg nonneg]

theorem signed_sub (sign : Sign) (first second : ℚ) :
    |signed sign first - signed sign second| = |first - second| := by
  cases sign with
  | positive => rfl
  | negative =>
      show |-first - -second| = _
      rw [neg_sub_neg, abs_sub_comm]

theorem signed_mul (first second : Sign) (left right : ℚ) :
    signed first left * signed second right = signed (first * second) (left * right) := by
  cases first <;> cases second
  · exact neg_mul_neg left right
  · exact neg_mul left right
  · exact mul_neg left right
  · rfl

theorem magnitude_log (mantissa : ℕ) (exponent : ℤ) (positive : 0 < mantissa) :
    (2 : ℚ) ^ (mantissa.log2 + exponent) ≤ mantissa * 2 ^ exponent ∧
      (mantissa : ℚ) * 2 ^ exponent < 2 ^ (mantissa.log2 + exponent + 1) := by
  have binade := binade_scaled Format.binary32 mantissa mantissa exponent positive le_rfl
    (by linarith)
  obtain ⟨low, high⟩ := binade
  rw [sub_add_cancel] at low high
  exact ⟨low, high⟩

section
variable (spec : Format)

/-- A finite value is a number rounded to the nearest one that the format has. -/
inductive Rounded (number : ℚ) (value : UnpackedFloat) : Prop where
  | zero (sign : Sign) (none : number = 0) (same : value = .zero sign)
  | settled (sign : Sign) (magnitude : ℚ) (log : ℤ) (count : ℕ)
      (split : number = signed sign magnitude)
      (low : 2 ^ log ≤ magnitude) (high : magnitude < 2 ^ (log + 1))
      (nearest : Nearest (magnitude / 2 ^ lastPlace spec log) count)
      (settled : Settled spec sign (count * 2 ^ lastPlace spec log) value)

/-- No bit is dropped before the rounding. -/
theorem exact_rounded (sign : Sign) (mantissa : ℕ) (exponent : ℤ) (positive : 0 < mantissa)
    (fits : exponent ≤ lastPlace spec (mantissa.log2 + exponent)) :
    Rounded spec (signed sign (mantissa * 2 ^ exponent))
      (UnpackedFloat.roundWithAccuracy spec sign mantissa exponent .exact) := by
  obtain ⟨count, nearest, settled⟩ := round_nearest spec sign mantissa exponent .exact _ positive
    (residue_exact mantissa) fits
  obtain ⟨low, high⟩ := magnitude_log mantissa exponent positive
  exact .settled sign _ _ count rfl low high nearest settled

theorem round_rounded (sign : Sign) (mantissa : ℕ) (exponent : ℤ) (positive : 0 < mantissa) :
    Rounded spec (signed sign (mantissa * 2 ^ exponent))
      (UnpackedFloat.round spec sign mantissa exponent) := by
  obtain ⟨shift, size⟩ : ∃ shift : ℕ,
      (exponent - lastPlace spec (mantissa.log2 + exponent)).toNat = shift := ⟨_, rfl⟩
  have longer : 0 < mantissa <<< shift := by
    rw [Nat.shiftLeft_eq]
    positivity
  have log : ((mantissa <<< shift).log2 : ℤ) + (exponent - shift) = mantissa.log2 + exponent := by
    rw [log2_shiftLeft mantissa shift positive]
    push_cast
    ring
  have same : ((mantissa <<< shift : ℕ) : ℚ) * 2 ^ (exponent - shift) =
      mantissa * 2 ^ exponent := by
    rw [Nat.shiftLeft_eq, zpow_sub₀ two_ne_zero, zpow_natCast]
    push_cast
    field_simp
  have rounded := exact_rounded spec sign (mantissa <<< shift) (exponent - shift) longer (by
    rw [log]
    omega)
  rw [same] at rounded
  simpa only [UnpackedFloat.round, UnpackedFloat.decreaseExponent, targetExponent_eq, size]
    using rounded

theorem normalize_rounded (mantissa : ℤ) (exponent : ℤ) (sign : Sign) :
    Rounded spec (mantissa * 2 ^ exponent)
      (UnpackedFloat.normalize spec mantissa exponent sign) := by
  unfold UnpackedFloat.normalize
  rcases lt_trichotomy mantissa 0 with negative | rfl | positive
  · rw [show compare mantissa 0 = .lt from compare_lt_iff_lt.mpr negative]
    have rounded := round_rounded spec .negative (-mantissa).toNat exponent (by omega)
    have magnitude : (((-mantissa).toNat : ℕ) : ℚ) = -mantissa := by
      have whole : ((-mantissa).toNat : ℤ) = -mantissa := Int.toNat_of_nonneg (by omega)
      exact_mod_cast congrArg (Int.cast : ℤ → ℚ) whole
    rw [magnitude] at rounded
    simpa [signed] using rounded
  · exact .zero sign (by simp) rfl
  · rw [show compare mantissa 0 = .gt from compare_gt_iff_gt.mpr positive]
    have rounded := round_rounded spec .positive mantissa.toNat exponent (by omega)
    have magnitude : ((mantissa.toNat : ℕ) : ℚ) = mantissa := by
      have whole : (mantissa.toNat : ℤ) = mantissa := Int.toNat_of_nonneg (by omega)
      exact_mod_cast congrArg (Int.cast : ℤ → ℚ) whole
    rw [magnitude] at rounded
    exact rounded

theorem normalized_rounded (sign : Sign) (mantissa : ℕ) (exponent : ℤ) (positive : 0 < mantissa)
    (normalized : Normalized spec mantissa exponent) :
    Rounded spec (signed sign (mantissa * 2 ^ exponent))
      (.finite sign mantissa exponent positive) := by
  have place : lastPlace spec (mantissa.log2 + exponent) = exponent := by
    have short : mantissa.log2 < places spec + 1 := (Nat.log2_lt positive.ne').mpr normalized.bound
    have least := normalized.least
    have long (above : spec.minExponent < exponent) : places spec ≤ mantissa.log2 :=
      (Nat.le_log2 positive.ne').mpr (normalized.normal above)
    simp only [lastPlace]
    omega
  have unit : (2 : ℚ) ^ exponent ≠ 0 := zpow_ne_zero _ two_ne_zero
  obtain ⟨low, high⟩ := magnitude_log mantissa exponent positive
  refine .settled sign _ _ mantissa rfl low high ?_ ?_
  · rw [place, mul_div_cancel_right₀ _ unit]
    exact nearest_self mantissa
  · rw [place]
    exact .finite mantissa exponent positive normalized rfl

theorem settled_number (sign : Sign) (magnitude : ℚ) (value : UnpackedFloat)
    (settled : Settled spec sign magnitude value) :
    unpackedNumber value = some (signed sign magnitude) := by
  cases settled with
  | zero none =>
      rw [none]
      cases sign <;> simp [unpackedNumber, signed]
  | finite mantissa exponent positive normalized same =>
      rw [same, ← apply_signed]
      rfl

theorem lastPlace_mono (first second : ℤ) (le : first ≤ second) :
    lastPlace spec first ≤ lastPlace spec second := by
  simp only [lastPlace]
  omega

theorem rounded_error (number : ℚ) (value : UnpackedFloat) (rounded : Rounded spec number value)
    (top : ℤ) (bound : |number| < 2 ^ (top + 1)) :
    ∃ result, unpackedNumber value = some result ∧
      |result - number| ≤ 2 ^ lastPlace spec top / 2 := by
  cases rounded with
  | zero sign none same =>
      refine ⟨0, by rw [same]; rfl, ?_⟩
      rw [none, sub_zero, abs_zero]
      positivity
  | settled sign magnitude log count split low high nearest settled =>
      have positive : (0 : ℚ) < magnitude := (zpow_pos two_pos log).trans_le low
      rw [split, abs_signed sign magnitude positive.le] at bound
      have logs : log ≤ top := by
        have power := (zpow_lt_zpow_iff_right₀ (one_lt_two : (1 : ℚ) < 2)).mp (low.trans_lt bound)
        omega
      have unit : (0 : ℚ) < 2 ^ lastPlace spec log := zpow_pos two_pos _
      have wider : (2 : ℚ) ^ lastPlace spec log ≤ 2 ^ lastPlace spec top :=
        zpow_le_zpow_right₀ one_le_two (lastPlace_mono spec log top logs)
      refine ⟨_, settled_number spec sign _ value settled, ?_⟩
      have scaled : count * 2 ^ lastPlace spec log - magnitude =
          -((magnitude / 2 ^ lastPlace spec log - count) * 2 ^ lastPlace spec log) := by
        field_simp
        ring
      rw [split, signed_sub, scaled, abs_neg, abs_mul, abs_of_pos unit]
      have half := mul_le_mul_of_nonneg_right nearest.1 unit.le
      linarith

theorem rounded_exact (number : ℚ) (value : UnpackedFloat) (rounded : Rounded spec number value)
    (mantissa : ℤ) (exponent : ℤ) (same : number = mantissa * 2 ^ exponent)
    (short : mantissa.natAbs < 2 ^ (places spec + 1)) (least : spec.minExponent ≤ exponent) :
    unpackedNumber value = some number := by
  cases rounded with
  | zero sign none same =>
      rw [same, none]
      rfl
  | settled sign magnitude log count split low high nearest settled =>
      have positive : (0 : ℚ) < magnitude := (zpow_pos two_pos log).trans_le low
      have size : magnitude = mantissa.natAbs * 2 ^ exponent := by
        have unit : (0 : ℚ) < 2 ^ exponent := zpow_pos two_pos exponent
        rw [← abs_signed sign magnitude positive.le, ← split, same, abs_mul, abs_of_pos unit,
          Nat.cast_natAbs, Int.cast_abs]
      have room : lastPlace spec log ≤ exponent := by
        have less : magnitude < 2 ^ (places spec + 1 + exponent : ℤ) := by
          have bits : (mantissa.natAbs : ℚ) < 2 ^ (places spec + 1) := by exact_mod_cast short
          rw [size, zpow_add₀ two_ne_zero]
          exact mul_lt_mul_of_pos_right (by exact_mod_cast bits) (zpow_pos two_pos exponent)
        have power := (zpow_lt_zpow_iff_right₀ (one_lt_two : (1 : ℚ) < 2)).mp (low.trans_lt less)
        simp only [lastPlace]
        omega
      obtain ⟨shift, gap⟩ : ∃ shift : ℕ, exponent = lastPlace spec log + shift :=
        ⟨(exponent - lastPlace spec log).toNat, by omega⟩
      have unit : (2 : ℚ) ^ lastPlace spec log ≠ 0 := zpow_ne_zero _ two_ne_zero
      have whole : magnitude / 2 ^ lastPlace spec log = (mantissa.natAbs * 2 ^ shift : ℕ) := by
        rw [size, gap, zpow_add₀ two_ne_zero, zpow_natCast]
        push_cast
        field_simp
      rw [whole] at nearest
      obtain rfl := nearest_unique _ _ _ nearest (nearest_self _)
      rw [settled_number spec sign _ value settled, split, ← whole, div_mul_cancel₀ _ unit]

/-- Packing and unpacking keep what was rounded, if it is not among the largest numbers. -/
theorem rounded_packed (wide : 1 < spec.exponentBits) (number : ℚ) (value : UnpackedFloat)
    (rounded : Rounded spec number value) (small : |number| < 2 ^ (topPlace spec + places spec)) :
    unpackedNumber (UnpackedFloat.unpack spec (UnpackedFloat.pack spec value)) =
      unpackedNumber value := by
  cases rounded with
  | zero sign none same =>
      rw [same, unpack_pack_zero spec wide]
  | settled sign magnitude log count split low high nearest settled =>
      have positive : (0 : ℚ) < magnitude := (zpow_pos two_pos log).trans_le low
      have unit : (0 : ℚ) < 2 ^ lastPlace spec log := zpow_pos two_pos _
      rw [split, abs_signed sign magnitude positive.le] at small
      have least : spec.minExponent ≤ topPlace spec := by
        have range : 2 ^ 2 ≤ 2 ^ spec.exponentBits := Nat.pow_le_pow_right (by decide) wide
        rw [exponentRange] at range
        rw [minExponent_eq, topPlace]
        omega
      have place : lastPlace spec log ≤ topPlace spec + places spec := by
        have power := (zpow_lt_zpow_iff_right₀ (one_lt_two : (1 : ℚ) < 2)).mp (low.trans_lt small)
        simp only [lastPlace]
        omega
      have inside : (count : ℚ) * 2 ^ lastPlace spec log <
          2 ^ (topPlace spec + places spec + 1) := by
        have wider : (2 : ℚ) ^ lastPlace spec log ≤ 2 ^ (topPlace spec + places spec) :=
          zpow_le_zpow_right₀ one_le_two place
        have close := (abs_le.mp nearest.1).1
        have scaled := mul_le_mul_of_nonneg_right close unit.le
        rw [sub_mul, div_mul_cancel₀ _ unit.ne'] at scaled
        rw [zpow_add_one₀ two_ne_zero]
        linarith
      have denotes := settled_denotes spec wide sign _ value settled inside
      rw [settled_number spec sign _ value settled]
      generalize UnpackedFloat.unpack spec (UnpackedFloat.pack spec value) = packed at denotes
      generalize (count : ℚ) * 2 ^ lastPlace spec log = result at denotes
      cases denotes with
      | zero => cases sign <;> simp [unpackedNumber, signed]
      | finite _ mantissa exponent positive =>
          rw [← apply_signed]
          rfl

end

/-! ## binary32 -/

/-- The value is the number, rounded. -/
def Closest (number : ℚ) (value : Float32) : Prop :=
  ∃ unpacked, Rounded Format.binary32 number unpacked ∧ exactValue value = unpackedNumber unpacked

theorem closest_packed (number : ℚ) (unpacked : UnpackedFloat) (value : Float32)
    (rounded : Rounded Format.binary32 number unpacked) (small : |number| < 2 ^ (127 : ℤ))
    (packed : value.toModel = Float32.Model.pack unpacked) : Closest number value := by
  refine ⟨unpacked, rounded, ?_⟩
  have kept := rounded_packed Format.binary32 (by decide) number unpacked rounded small
  rw [← kept, exactValue, packed]
  rfl

theorem closest_error (number : ℚ) (value : Float32) (closest : Closest number value) (top : ℤ)
    (normal : -126 ≤ top) (bound : |number| < 2 ^ (top + 1)) :
    ∃ result, exactValue value = some result ∧ |result - number| ≤ 2 ^ (top - 24) := by
  obtain ⟨unpacked, rounded, same⟩ := closest
  obtain ⟨result, denotes, error⟩ := rounded_error Format.binary32 number unpacked rounded top bound
  refine ⟨result, same.trans denotes, error.trans_eq ?_⟩
  have place : lastPlace Format.binary32 top = top - 24 + 1 := by
    show max (top - (23 : ℕ)) (-149) = _
    omega
  rw [place, zpow_add_one₀ two_ne_zero]
  ring

theorem closest_exact (number : ℚ) (value : Float32) (closest : Closest number value)
    (mantissa : ℤ) (exponent : ℤ) (same : number = mantissa * 2 ^ exponent)
    (short : mantissa.natAbs < 2 ^ 24) (least : -149 ≤ exponent) :
    exactValue value = some number := by
  obtain ⟨unpacked, rounded, denotes⟩ := closest
  rw [denotes]
  exact rounded_exact Format.binary32 number unpacked rounded mantissa exponent same short least

theorem exactValue_finite (value : Float32) (number : ℚ) (nonzero : number ≠ 0)
    (denotes : exactValue value = some number) : ∃ sign mantissa exponent,
      ∃ positive : 0 < mantissa, value.toModel.unpack = .finite sign mantissa exponent positive ∧
        number = signed sign (mantissa * 2 ^ exponent) ∧
        Normalized Format.binary32 mantissa exponent := by
  unfold exactValue at denotes
  cases unpacked : value.toModel.unpack with
  | finite sign mantissa exponent positive =>
      rw [unpacked] at denotes
      have canonical := unpack_canonical _ sign mantissa exponent positive unpacked
      refine ⟨sign, mantissa, exponent, positive, rfl, ?_,
        ⟨canonical.bound, canonical.least, canonical.normal⟩⟩
      rw [← apply_signed]
      exact (Option.some.inj denotes).symm
  | zero sign =>
      rw [unpacked] at denotes
      exact absurd (Option.some.inj denotes).symm nonzero
  | infinity sign =>
      rw [unpacked] at denotes
      cases denotes
  | notANumber =>
      rw [unpacked] at denotes
      cases denotes

theorem exactValue_zero (value : Float32) (denotes : exactValue value = some 0) :
    ∃ sign, value.toModel.unpack = .zero sign := by
  unfold exactValue at denotes
  cases unpacked : value.toModel.unpack with
  | finite sign mantissa exponent positive =>
      rw [unpacked] at denotes
      have number := Option.some.inj denotes
      have size : (0 : ℚ) < mantissa * 2 ^ exponent := by positivity
      rw [apply_signed] at number
      have none := abs_signed sign _ size.le
      rw [number, abs_zero] at none
      exact absurd none size.ne
  | zero sign => exact ⟨sign, rfl⟩
  | infinity sign =>
      rw [unpacked] at denotes
      cases denotes
  | notANumber =>
      rw [unpacked] at denotes
      cases denotes

theorem zero_closest (value : Float32) (sign : Sign)
    (packed : value.toModel = Float32.Model.pack (.zero sign)) : Closest 0 value :=
  closest_packed 0 (.zero sign) value (.zero sign rfl rfl)
    (by
      rw [abs_zero]
      exact zpow_pos two_pos _) packed

section
variable (first second : Float32) (x y : ℚ)
variable (left : exactValue first = some x) (right : exactValue second = some y)
include left right

theorem mul_closest (small : |x * y| < 2 ^ (127 : ℤ)) : Closest (x * y) (first * second) := by
  have product : (first * second).toModel = Float32.Model.pack (UnpackedFloat.mul Format.binary32
    first.toModel.unpack second.toModel.unpack) := rfl
  by_cases nonzero : x = 0
  · obtain ⟨sign, unpacked⟩ := exactValue_zero first (nonzero ▸ left)
    rw [nonzero, zero_mul]
    by_cases also : y = 0
    · obtain ⟨other, unpacked'⟩ := exactValue_zero second (also ▸ right)
      rw [unpacked, unpacked'] at product
      exact zero_closest _ _ product
    · obtain ⟨other, rest, shift, above, unpacked', -⟩ := exactValue_finite second y also right
      rw [unpacked, unpacked'] at product
      exact zero_closest _ _ product
  obtain ⟨sign, mantissa, exponent, positive, unpacked, rfl, normalized⟩ :=
    exactValue_finite first x nonzero left
  by_cases also : y = 0
  · obtain ⟨other, unpacked'⟩ := exactValue_zero second (also ▸ right)
    rw [also, mul_zero]
    rw [unpacked, unpacked'] at product
    exact zero_closest _ _ product
  obtain ⟨other, rest, shift, above, unpacked', rfl, normalized'⟩ :=
    exactValue_finite second y also right
  have whole : 0 < mantissa * rest := Nat.mul_pos positive above
  have value : signed sign (mantissa * 2 ^ exponent) * signed other (rest * 2 ^ shift) =
      signed (sign * other) ((mantissa * rest : ℕ) * 2 ^ (exponent + shift)) := by
    rw [signed_mul, zpow_add₀ two_ne_zero]
    push_cast
    congr 1
    ring
  have fits : exponent + shift ≤
      lastPlace Format.binary32 ((mantissa * rest).log2 + (exponent + shift)) := by
    show _ ≤ max (_ - ((23 : ℕ) : ℤ)) (-149)
    by_cases tiny : exponent + shift ≤ -149
    · omega
    · -- One of the two mantissas has all its places.
      have least : (-149 : ℤ) ≤ exponent := normalized.least
      have normal : (-149 : ℤ) < exponent → 2 ^ 23 ≤ mantissa := normalized.normal
      have normal' : (-149 : ℤ) < shift → 2 ^ 23 ≤ rest := normalized'.normal
      have long : 2 ^ 23 ≤ mantissa * rest := by
        by_cases low : exponent = -149
        · exact (normal' (by omega)).trans (Nat.le_mul_of_pos_left rest positive)
        · exact (normal (by omega)).trans (Nat.le_mul_of_pos_right mantissa above)
      have log : 23 ≤ (mantissa * rest).log2 := (Nat.le_log2 whole.ne').mpr long
      omega
  rw [value] at small ⊢
  rw [unpacked, unpacked'] at product
  exact closest_packed _ _ _ (exact_rounded Format.binary32 (sign * other) _ _ whole fits) small
    product

theorem add_closest (small : |x + y| < 2 ^ (127 : ℤ)) : Closest (x + y) (first + second) := by
  have sum : (first + second).toModel = Float32.Model.pack (UnpackedFloat.add Format.binary32
    first.toModel.unpack second.toModel.unpack) := rfl
  by_cases nonzero : x = 0
  · obtain ⟨sign, unpacked⟩ := exactValue_zero first (nonzero ▸ left)
    rw [nonzero, zero_add] at small ⊢
    by_cases also : y = 0
    · obtain ⟨other, unpacked'⟩ := exactValue_zero second (also ▸ right)
      rw [unpacked, unpacked'] at sum
      rw [also]
      cases sign <;> cases other <;> exact zero_closest _ _ sum
    · obtain ⟨other, rest, shift, above, unpacked', rfl, normalized⟩ :=
        exactValue_finite second y also right
      rw [unpacked, unpacked'] at sum
      exact closest_packed _ _ _ (normalized_rounded _ other rest shift above normalized) small sum
  obtain ⟨sign, mantissa, exponent, positive, unpacked, rfl, normalized⟩ :=
    exactValue_finite first x nonzero left
  by_cases also : y = 0
  · obtain ⟨other, unpacked'⟩ := exactValue_zero second (also ▸ right)
    rw [also, add_zero] at small ⊢
    rw [unpacked, unpacked'] at sum
    exact closest_packed _ _ _ (normalized_rounded _ sign mantissa exponent positive normalized)
      small sum
  obtain ⟨other, rest, shift, above, unpacked', rfl, -⟩ :=
    exactValue_finite second y also right
  -- Both numbers are multiples of the lower of the two units, so the sum is exact.
  have aligned (sign : Sign) (mantissa : ℕ) (exponent : ℤ) (lower : ℤ) (le : lower ≤ exponent) :
      signed sign (mantissa * 2 ^ exponent) =
        (sign.apply (mantissa <<< (exponent - lower).toNat : ℕ) : ℚ) * 2 ^ lower := by
    obtain ⟨gap, size⟩ : ∃ gap : ℕ, exponent = lower + gap := ⟨(exponent - lower).toNat, by omega⟩
    have amount : (exponent - lower).toNat = gap := by omega
    rw [apply_signed, amount, Nat.shiftLeft_eq, size, zpow_add₀ two_ne_zero, zpow_natCast]
    push_cast
    congr 1
    ring
  have value := congrArg₂ (· + ·)
    (aligned sign mantissa exponent (min exponent shift) (min_le_left _ _))
    (aligned other rest shift (min exponent shift) (min_le_right _ _))
  rw [← add_mul, ← Int.cast_add] at value
  rw [value] at small ⊢
  rw [unpacked, unpacked'] at sum
  exact closest_packed _ _ _ (normalize_rounded Format.binary32 _ _ .positive) small sum

/-- A quotient that is zero or not too small for all its places. -/
theorem div_closest (also : y ≠ 0) (large : x ≠ 0 → (2 : ℚ) ^ (-125 : ℤ) ≤ |x / y|)
    (small : |x / y| < 2 ^ (127 : ℤ)) : Closest (x / y) (first / second) := by
  have division : (first / second).toModel = Float32.Model.pack (UnpackedFloat.div
    Format.binary32 first.toModel.unpack second.toModel.unpack) := rfl
  by_cases nonzero : x = 0
  · obtain ⟨sign, unpacked⟩ := exactValue_zero first (nonzero ▸ left)
    obtain ⟨other, rest, shift, above, unpacked', -⟩ := exactValue_finite second y also right
    rw [unpacked, unpacked'] at division
    rw [nonzero, zero_div]
    exact zero_closest _ _ division
  replace large := large nonzero
  obtain ⟨sign, mantissa, exponent, positive, unpacked, rfl, -⟩ :=
    exactValue_finite first x nonzero left
  obtain ⟨other, rest, shift, above, unpacked', rfl, -⟩ :=
    exactValue_finite second y also right
  have value : signed sign (mantissa * 2 ^ exponent) / signed other (rest * 2 ^ shift) =
      signed (sign / other) (mantissa * 2 ^ exponent / (rest * 2 ^ shift)) := by
    cases sign <;> cases other
    · exact neg_div_neg_eq _ _
    · exact neg_div _ _
    · exact div_neg _
    · rfl
  have quotient : (0 : ℚ) < mantissa * 2 ^ exponent / (rest * 2 ^ shift) := by positivity
  rw [value, abs_signed _ _ quotient.le] at large
  have ratio : (mantissa : ℚ) * 2 ^ exponent / (rest * 2 ^ shift) <
      2 ^ (mantissa.log2 + exponent + 1 - (rest.log2 + shift)) := by
    obtain ⟨-, high⟩ := magnitude_log mantissa exponent positive
    obtain ⟨low, -⟩ := magnitude_log rest shift above
    rw [zpow_sub₀ two_ne_zero]
    exact div_lt_div₀ high low (zpow_pos two_pos _).le (zpow_pos two_pos _)
  -- A quotient this large has all its places.
  have range : Format.binary32.minExponent + places Format.binary32 <
      mantissa.log2 + exponent - (rest.log2 + shift) := by
    have power := (zpow_lt_zpow_iff_right₀ (one_lt_two : (1 : ℚ) < 2)).mp (large.trans_lt ratio)
    show (-149 : ℤ) + (23 : ℕ) < _
    omega
  obtain ⟨count, place, rounds, settled⟩ :=
    div_rounds Format.binary32 sign other mantissa rest exponent shift positive above range
  obtain ⟨⟨low, high⟩, nearest⟩ := rounds
  have least : lastPlace Format.binary32 (place + places Format.binary32) = place := by
    have power := (zpow_lt_zpow_iff_right₀ (one_lt_two : (1 : ℚ) < 2)).mp (large.trans_lt high)
    change -125 < place + (23 : ℕ) + 1 at power
    show max (place + (23 : ℕ) - (23 : ℕ)) (-149) = place
    omega
  have rounded : Rounded Format.binary32
      (signed (sign / other) (mantissa * 2 ^ exponent / (rest * 2 ^ shift))) _ :=
    .settled _ _ (place + places Format.binary32) count rfl low high (by rwa [least])
      (by rwa [least])
  rw [value] at small ⊢
  rw [unpacked, unpacked'] at division
  exact closest_packed _ _ _ rounded small division

end

theorem integer_exact (integer : ℤ) (short : integer.natAbs < 2 ^ 24) (value : Float32)
    (packed : value.toModel =
      Float32.Model.pack (UnpackedFloat.normalize Format.binary32 integer 0 .positive)) :
    exactValue value = some (integer : ℚ) := by
  have number : (integer : ℚ) * 2 ^ (0 : ℤ) = integer := by rw [zpow_zero, mul_one]
  have rounded := normalize_rounded Format.binary32 integer 0 .positive
  rw [number] at rounded
  refine closest_exact _ _ (closest_packed _ _ _ rounded ?_ packed) integer 0 number.symm short
    (by norm_num)
  have bound : |(integer : ℚ)| < 2 ^ 24 := by
    rw [← Int.cast_abs, ← Nat.cast_natAbs]
    exact_mod_cast short
  have power : (2 : ℚ) ^ (24 : ℤ) ≤ 2 ^ (127 : ℤ) := zpow_le_zpow_right₀ one_le_two (by norm_num)
  exact bound.trans_le ((by norm_num : (2 : ℚ) ^ 24 ≤ 2 ^ (24 : ℤ)).trans power)

theorem ofUInt8_exact (number : UInt8) : exactValue number.toFloat32 = some (number.toNat : ℚ) := by
  have small : number.toNat < 2 ^ 8 := number.toNat_lt
  exact integer_exact number.toNat (by rw [Int.natAbs_natCast]; omega) _ rfl

theorem ofUInt16_exact (number : UInt16) :
    exactValue number.toFloat32 = some (number.toNat : ℚ) := by
  have small : number.toNat < 2 ^ 16 := number.toNat_lt
  exact integer_exact number.toNat (by rw [Int.natAbs_natCast]; omega) _ rfl

theorem ofInt32_exact (number : Int32) (short : number.toInt.natAbs < 2 ^ 24) :
    exactValue (.ofModel (.ofInt32 number)) = some (number.toInt : ℚ) :=
  integer_exact number.toInt short _ rfl

/-! ## Order -/

/-- Canonical magnitudes are ordered by their exponents first. -/
theorem magnitude_lt (mantissa rest : ℕ) (exponent shift : ℤ)
    (bound : mantissa < 2 ^ 24) (bound' : rest < 2 ^ 24)
    (least : -149 ≤ exponent) (least' : -149 ≤ shift)
    (normal : -149 < exponent → 2 ^ 23 ≤ mantissa) (normal' : -149 < shift → 2 ^ 23 ≤ rest) :
    (mantissa : ℚ) * 2 ^ exponent < rest * 2 ^ shift ↔
      exponent < shift ∨ exponent = shift ∧ mantissa < rest := by
  have above (mantissa rest : ℕ) (exponent shift : ℤ) (bound : mantissa < 2 ^ 24)
      (least : -149 ≤ exponent) (normal : -149 < shift → 2 ^ 23 ≤ rest) (less : exponent < shift) :
      (mantissa : ℚ) * 2 ^ exponent < rest * 2 ^ shift := by
    have long : (2 : ℚ) ^ 23 ≤ rest := by exact_mod_cast normal (by omega)
    have short : (mantissa : ℚ) < 2 ^ 24 := by exact_mod_cast bound
    calc (mantissa : ℚ) * 2 ^ exponent < 2 ^ 24 * 2 ^ exponent :=
          mul_lt_mul_of_pos_right short (zpow_pos two_pos _)
      _ = 2 ^ 23 * 2 ^ (exponent + 1) := by
          rw [zpow_add_one₀ two_ne_zero]
          ring
      _ ≤ rest * 2 ^ shift :=
          mul_le_mul long (zpow_le_zpow_right₀ one_le_two (by omega)) (zpow_pos two_pos _).le
            (by positivity)
  rcases lt_trichotomy exponent shift with less | rfl | greater
  · exact iff_of_true (above mantissa rest exponent shift bound least normal' less) (.inl less)
  · have unit : (0 : ℚ) < 2 ^ exponent := zpow_pos two_pos _
    rw [mul_lt_mul_iff_left₀ unit, Nat.cast_lt]
    simp
  · have other := above rest mantissa shift exponent bound' least' normal greater
    exact iff_of_false other.not_gt (by omega)

theorem compare_lt (mantissa rest : ℕ) (exponent shift : ℤ) :
    (compare exponent shift).then (compare mantissa rest) = .lt ↔
      exponent < shift ∨ exponent = shift ∧ mantissa < rest := by
  rw [Ordering.then_eq_lt, compare_lt_iff_lt, compare_eq_iff_eq, compare_lt_iff_lt]

theorem compare_gt (mantissa rest : ℕ) (exponent shift : ℤ) :
    (compare exponent shift).then (compare mantissa rest) = .gt ↔
      shift < exponent ∨ shift = exponent ∧ rest < mantissa := by
  rw [Ordering.then_eq_gt, compare_gt_iff_gt, compare_eq_iff_eq, compare_gt_iff_gt, eq_comm]

theorem lt_number (first second : Float32) (x y : ℚ) (left : exactValue first = some x)
    (right : exactValue second = some y) : first < second ↔ x < y := by
  have compared : first < second ↔
      UnpackedFloat.lt first.toModel.unpack second.toModel.unpack = true := decide_eq_true_iff
  rw [compared]
  unfold exactValue at left right
  cases unpacked : first.toModel.unpack with
  | infinity => rw [unpacked] at left; cases left
  | notANumber => rw [unpacked] at left; cases left
  | zero sign =>
      rw [unpacked] at left
      obtain rfl := Option.some.inj left
      cases unpacked' : second.toModel.unpack with
      | infinity => rw [unpacked'] at right; cases right
      | notANumber => rw [unpacked'] at right; cases right
      | zero other =>
          rw [unpacked'] at right
          obtain rfl := Option.some.inj right
          exact iff_of_false (by simp [UnpackedFloat.lt, UnpackedFloat.compare]) (lt_irrefl _)
      | finite other rest shift above =>
          rw [unpacked'] at right
          obtain rfl := Option.some.inj right
          have size : (0 : ℚ) < rest * 2 ^ shift := by positivity
          rw [apply_signed]
          cases other
          · exact iff_of_false (by simp [UnpackedFloat.lt, UnpackedFloat.compare])
              (by simp only [signed]; linarith)
          · exact iff_of_true (by simp [UnpackedFloat.lt, UnpackedFloat.compare]) size
  | finite sign mantissa exponent positive =>
      rw [unpacked] at left
      obtain rfl := Option.some.inj left
      have size : (0 : ℚ) < mantissa * 2 ^ exponent := by positivity
      -- Canonical numbers of one sign compare as their exponents and mantissas do.
      have canonical := unpack_canonical _ sign mantissa exponent positive unpacked
      cases unpacked' : second.toModel.unpack with
      | infinity => rw [unpacked'] at right; cases right
      | notANumber => rw [unpacked'] at right; cases right
      | zero other =>
          rw [unpacked'] at right
          obtain rfl := Option.some.inj right
          rw [apply_signed]
          cases sign
          · exact iff_of_true (by simp [UnpackedFloat.lt, UnpackedFloat.compare])
              (by simp only [signed]; linarith)
          · exact iff_of_false (by simp [UnpackedFloat.lt, UnpackedFloat.compare])
              (by simp only [signed]; linarith)
      | finite other rest shift above =>
          rw [unpacked'] at right
          obtain rfl := Option.some.inj right
          have size' : (0 : ℚ) < rest * 2 ^ shift := by positivity
          have canonical' := unpack_canonical _ other rest shift above unpacked'
          rw [apply_signed, apply_signed]
          cases sign <;> cases other
          · have order := magnitude_lt rest mantissa shift exponent canonical'.bound canonical.bound
              canonical'.least canonical.least canonical'.normal canonical.normal
            simp only [signed, neg_lt_neg_iff]
            rw [order, ← compare_gt, ← Ordering.swap_eq_lt]
            simp [UnpackedFloat.lt, UnpackedFloat.compare]
          · exact iff_of_true (by simp [UnpackedFloat.lt, UnpackedFloat.compare])
              (by simp only [signed]; linarith)
          · exact iff_of_false (by simp [UnpackedFloat.lt, UnpackedFloat.compare])
              (by simp only [signed]; linarith)
          · have order := magnitude_lt mantissa rest exponent shift canonical.bound canonical'.bound
              canonical.least canonical'.least canonical.normal canonical'.normal
            simp only [signed]
            rw [order, ← compare_lt]
            simp [UnpackedFloat.lt, UnpackedFloat.compare]

end SensorNode.BinaryArithmetic
