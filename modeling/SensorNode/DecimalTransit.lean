import SensorNode.BinaryRounding
import SensorNode.BinaryValue
import SensorNode.WireFormat

/-!
Two decimals on their way through the collector: printed by a client, read by the listener as a
binary32 value and printed again into the payload. Below 131072 the values lie closer together
than two decimals do; above, a printed value is closest to itself.
-/

namespace SensorNode.DecimalTransit

open LineStream DecimalText ScanText DoubleText FloatGrammar ReadingStore WireFormat
open BinaryRounding BinaryValue
open Float.Model (Format UnpackedFloat)
open Float.Model.UnpackedFloat (Sign ExtendedMantissa accuracyOfFraction)

/-! ## Printing -/

/-- Rounding a printed decimal takes the steps that rounding a quotient takes. -/
theorem roundHalfEven_rounded (numerator denominator : ℕ) (positive : 0 < denominator) :
    (ExtendedMantissa.ofMantissaAndAccuracy (numerator / denominator)
      (accuracyOfFraction (numerator % denominator) denominator)).roundedMantissa =
        roundHalfEven numerator denominator := by
  unfold roundHalfEven accuracyOfFraction
  simp only
  generalize numerator / denominator = quotient
  generalize numerator % denominator = rest
  by_cases none : rest = 0
  · rw [if_pos none, if_pos (by omega)]
    rfl
  · rw [if_neg none]
    rcases lt_trichotomy (2 * rest) denominator with small | half | large
    · rw [Nat.compare_eq_lt.mpr small, if_pos small]
      rfl
    · rw [Nat.compare_eq_eq.mpr half, if_neg (by omega), if_neg (by omega)]
      rfl
    · rw [Nat.compare_eq_gt.mpr large, if_neg (by omega), if_pos large]
      rfl

theorem magnitude_nearest (mantissa : ℕ) (exponent : ℤ) :
    Nearest ((mantissa : ℚ) * 2 ^ exponent * 100) (magnitudeHundredths mantissa exponent) := by
  cases exponent with
  | ofNat exponent =>
      have whole : (mantissa : ℚ) * 2 ^ (Int.ofNat exponent) * 100 =
          (mantissa * 2 ^ exponent * 100 : ℕ) := by
        push_cast
        rfl
      rw [whole]
      exact nearest_self _
  | negSucc exponent =>
      have positive : 0 < 2 ^ (exponent + 1) := Nat.two_pow_pos _
      have residue := residue_fraction (mantissa * 100) (2 ^ (exponent + 1)) positive
      have quotient : (mantissa : ℚ) * 2 ^ (Int.negSucc exponent) * 100 =
          ((mantissa * 100 : ℕ) : ℚ) / (2 ^ (exponent + 1) : ℕ) := by
        rw [zpow_negSucc]
        push_cast
        ring
      rw [quotient, magnitudeHundredths, ← roundHalfEven_rounded _ _ positive]
      exact residue_nearest _ _ residue

theorem printFixed2_nearest (value : UnpackedFloat) (sign : Sign) (magnitude : ℚ)
    (denotes : Denotes value sign magnitude) (total : ℕ)
    (nearest : Nearest (magnitude * 100) total) :
    printFixed2 value = signText sign ++ fixed2 total := by
  cases denotes with
  | zero =>
      rw [zero_mul] at nearest
      obtain rfl := nearest_unique 0 total 0 nearest (by simpa using nearest_self 0)
      rfl
  | finite _ mantissa exponent positive =>
      obtain rfl := nearest_unique _ total _ nearest (magnitude_nearest mantissa exponent)
      rfl

theorem finite_denotes (value : Float32) (finite : value.isFinite = true) :
    ∃ sign magnitude, Denotes value.toModel.unpack sign magnitude := by
  unfold Float32.isFinite Float32.Model.isFinite at finite
  cases unpacked : value.toModel.unpack with
  | infinity sign => simp [unpacked, UnpackedFloat.isFinite] at finite
  | notANumber => simp [unpacked, UnpackedFloat.isFinite] at finite
  | zero sign => exact ⟨sign, _, .zero sign⟩
  | finite sign mantissa exponent positive =>
      exact ⟨sign, _, .finite sign mantissa exponent positive⟩

theorem denotes_finite (value : Float32) (sign : Sign) (magnitude : ℚ)
    (denotes : Denotes value.toModel.unpack sign magnitude) : value.isFinite = true := by
  unfold Float32.isFinite Float32.Model.isFinite
  cases unpacked : value.toModel.unpack with
  | infinity sign =>
      rw [unpacked] at denotes
      cases denotes
  | notANumber =>
      rw [unpacked] at denotes
      cases denotes
  | zero sign => rfl
  | finite sign mantissa exponent positive => rfl

/-! ## Reading -/

theorem unpack_normalized (value : Float32) (sign : Sign) (mantissa : ℕ) (exponent : ℤ)
    (positive : 0 < mantissa)
    (unpacked : value.toModel.unpack = .finite sign mantissa exponent positive) :
    Normalized Format.binary32 mantissa exponent ∧ exponent ≤ 104 := by
  have canonical := unpack_canonical _ sign mantissa exponent positive unpacked
  exact ⟨⟨canonical.bound, canonical.least, canonical.normal⟩,
    (unpack_bounds value sign mantissa exponent positive unpacked).2⟩

theorem denotes_neg (value : Float32) (sign : Sign) (magnitude : ℚ)
    (denotes : Denotes value.toModel.unpack sign magnitude) :
    Denotes (-value).toModel.unpack (-sign) magnitude := by
  show Denotes (UnpackedFloat.unpack Format.binary32
    (UnpackedFloat.pack Format.binary32 value.toModel.unpack.neg)) (-sign) magnitude
  cases unpacked : value.toModel.unpack with
  | infinity other =>
      rw [unpacked] at denotes
      cases denotes
  | notANumber =>
      rw [unpacked] at denotes
      cases denotes
  | zero other =>
      rw [unpacked] at denotes
      cases denotes
      rw [UnpackedFloat.neg, unpack_pack_zero _ (by decide)]
      exact .zero _
  | finite other mantissa exponent positive =>
      rw [unpacked] at denotes
      cases denotes
      obtain ⟨normalized, most⟩ := unpack_normalized value sign mantissa exponent positive unpacked
      rw [UnpackedFloat.neg, unpack_pack _ (-sign) mantissa exponent positive normalized most]
      exact .finite _ mantissa exponent positive

theorem fixedNumber_denotes (sign : Sign) (total : ℕ) (scanned : Float32) (magnitude : ℚ)
    (item : (fixedNumber sign total).magnitude.item.toFloat32 = scanned)
    (read : Denotes scanned.toModel.unpack .positive magnitude) :
    Denotes (fixedNumber sign total).value.toModel.unpack sign magnitude := by
  rw [Number.value, item]
  cases sign with
  | positive => exact read
  | negative => exact denotes_neg scanned .positive magnitude read

theorem fixedNumber_rounds (sign : Sign) (total : ℕ) (positive : 0 < total)
    (inside : (total : ℚ) / 100 < overflow Format.binary32) :
    ∃ count place, Rounds Format.binary32 ((total : ℚ) / 100) count place ∧
      Denotes (fixedNumber sign total).value.toModel.unpack sign (count * 2 ^ place) := by
  have hundred : (10 ^ 2 : ℕ).log2 = 6 := by decide
  obtain ⟨count, place, rounds, settled⟩ := ofScientific_rounds Format.binary32 total 2 positive
    (by decide) (by decide) (by
      rw [hundred, show Format.binary32.minExponent = -149 from rfl]
      show (-149 : ℤ) + (23 : ℕ) < _
      omega)
  have cast : ((10 : ℚ) ^ 2) = 100 := by norm_num
  rw [cast] at rounds
  have read := settled_denotes Format.binary32 (by decide) _ _ _ settled
    (rounds_inside _ _ _ _ rounds inside)
  refine ⟨count, place, rounds, fixedNumber_denotes sign total
    (.ofModel (Float32.Model.ofScientific total (-2))) _ ?_ read⟩
  rw [fixedNumber_item]
  rfl

theorem fixedNumber_zero (sign : Sign) :
    Denotes (fixedNumber sign 0).value.toModel.unpack sign 0 := by
  have none : UnpackedFloat.ofScientific Format.binary32 0 (-2) = .zero .positive := dif_pos rfl
  have read : Denotes (UnpackedFloat.unpack Format.binary32
      (UnpackedFloat.pack Format.binary32 (.zero .positive))) .positive 0 := by
    rw [unpack_pack_zero _ (by decide)]
    exact .zero _
  refine fixedNumber_denotes sign 0 (.ofModel (Float32.Model.pack (.zero .positive))) 0 ?_ read
  rw [fixedNumber_item, FloatItem.toFloat32, Float32.Model.ofScientific, none]

/-! ## Printing again -/

/-- A datagram of this text is stored as a value that prints as the text. -/
def Transits (name text : Bytes) : Prop :=
  ∃ value, parseDatagram (name ++ 58 :: text) = some (name, value) ∧ printFloat2 value = text

theorem fixed_message (name : Bytes) (named : Named name) (sign : Sign) (total : ℕ)
    (short : total < 10 ^ 41) (finite : (fixedNumber sign total).value.isFinite = true) :
    parseDatagram (name ++ 58 :: (signText sign ++ fixed2 total)) =
      some (name, (fixedNumber sign total).value) := by
  have digits := fixed2_length total short
  have signed := signText_length sign
  have room := named.short
  rw [parseDatagram_iff]
  · refine ⟨fixedNumber sign total, plain_carries _ name _ ⟨named, ?_, _, rfl⟩, rfl, finite⟩
    rw [fixedNumber_text]
  · simp only [List.length_append, List.length_cons]
    omega

theorem transits_nearest (name : Bytes) (named : Named name) (sign : Sign) (total : ℕ)
    (short : total < 10 ^ 41) (magnitude : ℚ)
    (read : Denotes (fixedNumber sign total).value.toModel.unpack sign magnitude)
    (nearest : Nearest (magnitude * 100) total) :
    Transits name (signText sign ++ fixed2 total) := by
  refine ⟨_, fixed_message name named sign total short (denotes_finite _ sign magnitude read), ?_⟩
  rw [printFloat2_fixed]
  exact printFixed2_nearest _ sign magnitude read total nearest

theorem transits_zero (name : Bytes) (named : Named name) (sign : Sign) :
    Transits name (signText sign ++ fixed2 0) := by
  apply transits_nearest name named sign 0 (by decide) 0 (fixedNumber_zero sign)
  rw [zero_mul]
  exact_mod_cast nearest_self 0

theorem small_nearest (total count : ℕ) (place : ℤ) (small : total < 13107200)
    (rounds : Rounds Format.binary32 ((total : ℚ) / 100) count place) :
    Nearest (count * 2 ^ place * 100 : ℚ) total := by
  have number : (total : ℚ) / 100 < 2 ^ (17 : ℤ) := by
    rw [div_lt_iff₀ (by norm_num)]
    exact_mod_cast small
  have low : place ≤ -7 := by
    have power := (zpow_lt_zpow_iff_right₀ (one_lt_two : (1 : ℚ) < 2)).mp
      (rounds.binade.low.trans_lt number)
    change place + (23 : ℕ) < 17 at power
    omega
  have unit : (2 : ℚ) ^ place ≤ 1 / 128 :=
    (zpow_le_zpow_right₀ one_le_two low).trans_eq (by norm_num)
  have error := abs_le.mp (rounds_error _ _ _ _ rounds)
  apply nearest_of_close
  rw [abs_lt]
  constructor <;> linarith [error.1, error.2]

theorem below_overflow (number : ℚ) (small : number < 2 ^ 24) :
    number < overflow Format.binary32 := by
  have top : overflow Format.binary32 = (2 ^ 24 - 1 / 2) * 2 ^ (104 : ℤ) := rfl
  have power : (2 : ℚ) ^ (1 : ℤ) ≤ 2 ^ (104 : ℤ) := zpow_le_zpow_right₀ one_le_two (by norm_num)
  rw [top]
  linarith

theorem small_transits (name : Bytes) (named : Named name) (sign : Sign) (total : ℕ)
    (small : total < 13107200) : Transits name (signText sign ++ fixed2 total) := by
  rcases Nat.eq_zero_or_pos total with rfl | positive
  · exact transits_zero name named sign
  · have number : (total : ℚ) / 100 < 2 ^ 24 := by
      rw [div_lt_iff₀ (by norm_num)]
      have bound : (total : ℚ) < 13107200 := by exact_mod_cast small
      linarith
    obtain ⟨count, place, rounds, read⟩ :=
      fixedNumber_rounds sign total positive (below_overflow _ number)
    exact transits_nearest name named sign total (small.trans (by decide)) _ read
      (small_nearest total count place small rounds)

theorem whole_hundredths (number : ℚ) (whole total : ℕ) (same : number * 100 = whole)
    (nearest : Nearest (number * 100) total) : (total : ℚ) / 100 = number := by
  rw [same] at nearest
  obtain rfl := nearest_unique _ total whole nearest (nearest_self whole)
  rw [← same]
  ring

/-- From 2^17 on the places of a value are no finer than 1/64. -/
theorem large_hundredths (mantissa total : ℕ) (exponent : ℤ)
    (normalized : Normalized Format.binary32 mantissa exponent) (coarse : -6 ≤ exponent)
    (nearest : Nearest (mantissa * 2 ^ exponent * 100 : ℚ) total) :
    Binade Format.binary32 ((total : ℚ) / 100) exponent ∧
      |(total : ℚ) / 100 - mantissa * 2 ^ exponent| < 2 ^ exponent / 2 := by
  have unit : (0 : ℚ) < 2 ^ exponent := zpow_pos two_pos exponent
  have fine : (1 / 64 : ℚ) ≤ 2 ^ exponent :=
    (show (1 / 64 : ℚ) = 2 ^ (-6 : ℤ) by norm_num).trans_le
      (zpow_le_zpow_right₀ one_le_two coarse)
  have low : (2 ^ 23 : ℚ) ≤ mantissa := by
    exact_mod_cast normalized.normal (lt_of_lt_of_le (by decide) coarse)
  have high : (mantissa : ℚ) + 1 ≤ 2 ^ 24 := by exact_mod_cast normalized.bound
  have bottom : (2 : ℚ) ^ (exponent + places Format.binary32) = 2 ^ 23 * 2 ^ exponent := by
    rw [zpow_add₀ two_ne_zero, mul_comm]
    rfl
  have top : (2 : ℚ) ^ (exponent + places Format.binary32 + 1) = 2 ^ 24 * 2 ^ exponent := by
    rw [zpow_add_one₀ two_ne_zero, bottom]
    ring
  have bounds : (2 : ℚ) ^ 23 * 2 ^ exponent ≤ mantissa * 2 ^ exponent ∧
      (mantissa + 1 : ℚ) * 2 ^ exponent ≤ 2 ^ 24 * 2 ^ exponent :=
    ⟨mul_le_mul_of_nonneg_right low unit.le, mul_le_mul_of_nonneg_right high unit.le⟩
  -- An integer number of hundredths is printed as it is.
  by_cases whole : ∃ integer : ℕ, (mantissa : ℚ) * 2 ^ exponent * 100 = integer
  · obtain ⟨integer, same⟩ := whole
    rw [whole_hundredths _ integer total same nearest]
    refine ⟨⟨?_, ?_⟩, ?_⟩
    · rw [bottom]
      exact bounds.1
    · rw [top]
      linarith [bounds.2]
    · rw [sub_self, abs_zero]
      exact half_pos unit
  · -- neither an integer nor the first value of the binade, where the places get finer
    have inside : (2 ^ 23 + 1 : ℚ) ≤ mantissa := by
      have other : mantissa ≠ 2 ^ 23 := by
        rintro rfl
        obtain ⟨power, size⟩ : ∃ power : ℕ, 23 + exponent = power :=
          ⟨(23 + exponent).toNat, by omega⟩
        refine whole ⟨2 ^ power * 100, ?_⟩
        push_cast
        rw [← zpow_natCast, ← size, zpow_add₀ two_ne_zero]
        norm_cast
      have more : 2 ^ 23 < mantissa := lt_of_le_of_ne (by exact_mod_cast low) (Ne.symm other)
      exact_mod_cast more
    have close := abs_le.mp nearest.1
    have above : (2 ^ 23 + 1 : ℚ) * 2 ^ exponent ≤ mantissa * 2 ^ exponent :=
      mul_le_mul_of_nonneg_right inside unit.le
    refine ⟨⟨?_, ?_⟩, ?_⟩
    · rw [bottom]
      linarith
    · rw [top]
      linarith [bounds.2]
    · rw [abs_lt]
      constructor <;> linarith

theorem large_nearest (mantissa total count : ℕ) (exponent place : ℤ)
    (normalized : Normalized Format.binary32 mantissa exponent) (coarse : -6 ≤ exponent)
    (nearest : Nearest (mantissa * 2 ^ exponent * 100 : ℚ) total)
    (rounds : Rounds Format.binary32 ((total : ℚ) / 100) count place) :
    Nearest (count * 2 ^ place * 100 : ℚ) total := by
  obtain ⟨binade, close⟩ := large_hundredths mantissa total exponent normalized coarse nearest
  obtain rfl := binade_unique _ _ _ _ rounds.binade binade
  have unit : (0 : ℚ) < 2 ^ place := zpow_pos two_pos place
  have same : Nearest ((total : ℚ) / 100 / 2 ^ place) mantissa := by
    apply nearest_of_close
    have scaled : (total : ℚ) / 100 / 2 ^ place - mantissa =
        ((total : ℚ) / 100 - mantissa * 2 ^ place) / 2 ^ place := by
      field_simp
    rw [scaled, abs_div, abs_of_pos unit, div_lt_iff₀ unit]
    linarith
  obtain rfl := nearest_unique _ _ _ rounds.nearest same
  exact nearest

theorem printed_below (mantissa total : ℕ) (exponent : ℤ)
    (normalized : Normalized Format.binary32 mantissa exponent) (most : exponent ≤ 104)
    (nearest : Nearest (mantissa * 2 ^ exponent * 100 : ℚ) total) :
    (total : ℚ) / 100 < overflow Format.binary32 := by
  have top : overflow Format.binary32 = (2 ^ 24 - 1 / 2) * 2 ^ (104 : ℤ) := rfl
  have high : (mantissa : ℚ) ≤ 2 ^ 24 - 1 := by
    have bound : (mantissa : ℚ) + 1 ≤ 2 ^ 24 := by exact_mod_cast normalized.bound
    linarith
  have largest : (mantissa : ℚ) * 2 ^ exponent ≤ (2 ^ 24 - 1) * 2 ^ (104 : ℤ) :=
    mul_le_mul high (zpow_le_zpow_right₀ one_le_two most) (zpow_pos two_pos _).le (by norm_num)
  have unit : (1 : ℚ) ≤ 2 ^ (104 : ℤ) := one_le_zpow₀ one_le_two (by norm_num)
  have close := (abs_le.mp nearest.1).1
  rw [top]
  linarith

theorem printed_small (mantissa total : ℕ) (exponent : ℤ)
    (normalized : Normalized Format.binary32 mantissa exponent) (fine : exponent ≤ -7)
    (nearest : Nearest (mantissa * 2 ^ exponent * 100 : ℚ) total) : total < 13107200 := by
  have high : (mantissa : ℚ) ≤ 2 ^ 24 - 1 := by
    have bound : (mantissa : ℚ) + 1 ≤ 2 ^ 24 := by exact_mod_cast normalized.bound
    linarith
  have unit : (2 : ℚ) ^ exponent ≤ 1 / 128 :=
    (zpow_le_zpow_right₀ one_le_two fine).trans_eq (by norm_num)
  have largest : (mantissa : ℚ) * 2 ^ exponent ≤ (2 ^ 24 - 1) * (1 / 128) :=
    mul_le_mul high unit (zpow_pos two_pos _).le (by norm_num)
  have close := (abs_le.mp nearest.1).1
  have less : (total : ℚ) < 13107200 := by linarith
  exact_mod_cast less

theorem float_transits (name : Bytes) (named : Named name) (value : Float32)
    (finite : value.isFinite = true) : Transits name (printFloat2 value) := by
  rw [printFloat2_fixed]
  obtain ⟨sign, magnitude, denotes⟩ := finite_denotes value finite
  cases unpacked : value.toModel.unpack with
  | infinity other =>
      rw [unpacked] at denotes
      cases denotes
  | notANumber =>
      rw [unpacked] at denotes
      cases denotes
  | zero other => exact transits_zero name named other
  | finite other mantissa exponent positive =>
      obtain ⟨normalized, most⟩ := unpack_normalized value other mantissa exponent positive unpacked
      have nearest := magnitude_nearest mantissa exponent
      have short := magnitudeHundredths_bound mantissa exponent normalized.bound most
      show Transits name (signText other ++ fixed2 (magnitudeHundredths mantissa exponent))
      generalize magnitudeHundredths mantissa exponent = total at nearest short
      rcases Nat.eq_zero_or_pos total with rfl | some'
      · exact transits_zero name named other
      · obtain ⟨count, place, rounds, read⟩ := fixedNumber_rounds other total some'
          (printed_below mantissa total exponent normalized most nearest)
        refine transits_nearest name named other total short _ read ?_
        by_cases coarse : -6 ≤ exponent
        · exact large_nearest mantissa total count exponent place normalized coarse nearest rounds
        · have small := printed_small mantissa total exponent normalized (by omega) nearest
          exact small_nearest total count place small rounds

/-- Every value that prints as two decimals prints so again after its text has been read, and any
two decimals below 131072 stay as they are. The next hundredth does not. -/
theorem decimals_transit (name : Bytes) (named : Named name) :
    (∀ value : Float32, value.isFinite = true → Transits name (printFloat2 value)) ∧
    (∀ sign total, total < 13107200 → Transits name (signText sign ++ fixed2 total)) ∧
    ¬ Transits name (signText .positive ++ fixed2 13107201) := by
  refine ⟨float_transits name named, small_transits name named, ?_⟩
  rintro ⟨value, parsed, printed⟩
  rw [fixed_message name named .positive 13107201 (by decide) (by decide +kernel)] at parsed
  obtain rfl : (fixedNumber .positive 13107201).value = value :=
    congrArg Prod.snd (Option.some.inj parsed)
  exact absurd printed (by decide +kernel)

theorem decimals_transit_temp : Transits (ascii "bmp180_temp") (printFloat2 21.37) ∧
    Transits (ascii "gy63_temp") (ascii "-4.05") :=
  ⟨(decimals_transit (ascii "bmp180_temp") (by decide)).1 21.37 (by decide +kernel),
    (decimals_transit (ascii "gy63_temp") (by decide)).2.1 .negative 405 (by decide)⟩

end SensorNode.DecimalTransit
