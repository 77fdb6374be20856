import SensorNode.PressureCompensation

/-!
The temperature that `gy63_read` reports against the raw value it is computed
from. The quadratic term is subtracted only where the difference to the reference
is negative, and there it grows as the raw value falls; so the order of the raw
values is kept on both sides of the threshold and across it.
-/

namespace SensorNode.TemperatureOrder

open SignedWord PressureCompensation

/-! ## The formula -/

section
variable (prom : Vector UInt16 8)

theorem exactFirstOrder_mono {low high : Int} (le : low ≤ high) :
    (exactFirstOrder prom low).dT ≤ (exactFirstOrder prom high).dT ∧
      (exactFirstOrder prom low).temp ≤ (exactFirstOrder prom high).temp := by
  have differences : low - prom[5].toNat * 2 ^ 8 ≤ high - prom[5].toNat * 2 ^ 8 := by omega
  have products := mul_le_mul_of_nonneg_right differences (Int.natCast_nonneg prom[6].toNat)
  refine ⟨differences, ?_⟩
  exact Int.add_le_add_left (Int.ediv_le_ediv (by norm_num) products) 2000

theorem cold_dT_neg {d2 : Int} (cold : (exactFirstOrder prom d2).temp < 2000) :
    (exactFirstOrder prom d2).dT < 0 := by
  by_contra nonneg
  have product : 0 ≤ (exactFirstOrder prom d2).dT * prom[6].toNat :=
    mul_nonneg (not_lt.mp nonneg) (Int.natCast_nonneg _)
  have scaled : 0 ≤ (exactFirstOrder prom d2).dT * prom[6].toNat / 2 ^ 23 :=
    Int.ediv_nonneg product (by norm_num)
  have base : 2000 ≤ (exactFirstOrder prom d2).temp := by
    show 2000 ≤ (2000 : Int) + (exactFirstOrder prom d2).dT * prom[6].toNat / 2 ^ 23
    omega
  omega

end

theorem exact_t2_cold {terms : Terms Int Int} (cold : terms.temp < 2000) :
    (exactLowTemperature terms).t2 = terms.dT * terms.dT / 2 ^ 31 := by
  unfold exactLowTemperature
  rw [if_pos cold]
  split <;> rfl

theorem exact_t2_warm {terms : Terms Int Int} (warm : ¬ terms.temp < 2000) :
    (exactLowTemperature terms).t2 = 0 := by
  unfold exactLowTemperature
  rw [if_neg warm]

theorem exact_t2_nonneg (terms : Terms Int Int) : 0 ≤ (exactLowTemperature terms).t2 := by
  by_cases cold : terms.temp < 2000
  · rw [exact_t2_cold cold]
    exact Int.ediv_nonneg (mul_self_nonneg _) (by norm_num)
  · rw [exact_t2_warm cold]

theorem exactCompensate_mono (prom : Vector UInt16 8) {low high : Int} (le : low ≤ high) :
    (exactCompensate prom low).temp ≤ (exactCompensate prom high).temp := by
  obtain ⟨dT, temp⟩ := exactFirstOrder_mono prom le
  show (exactFirstOrder prom low).temp - (exactLowTemperature (exactFirstOrder prom low)).t2 ≤
    (exactFirstOrder prom high).temp - (exactLowTemperature (exactFirstOrder prom high)).t2
  by_cases cold : (exactFirstOrder prom high).temp < 2000
  · -- Both are below the threshold, where the square falls as the difference rises.
    have negative := cold_dT_neg prom cold
    have squares : (exactFirstOrder prom high).dT * (exactFirstOrder prom high).dT ≤
        (exactFirstOrder prom low).dT * (exactFirstOrder prom low).dT := by
      nlinarith only [dT, negative]
    have corrections := Int.ediv_le_ediv (c := 2 ^ 31) (by norm_num) squares
    rw [exact_t2_cold cold, exact_t2_cold (lt_of_le_of_lt temp cold)]
    omega
  · -- The higher value is not corrected, and a correction only lowers the other.
    have dropped := exact_t2_nonneg (exactFirstOrder prom low)
    rw [exact_t2_warm cold]
    omega

/-! ## The types -/

/-- Every 32-bit value on the way to the pressure, in the order of the code. -/
def words32 (prom : Vector UInt16 8) (d2 : Int) : List Int :=
  let terms := exactFirstOrder prom d2
  [d2, (prom.get 5).toNat * 2 ^ 8, terms.dT, terms.dT * (prom.get 6).toNat / 2 ^ 23, terms.temp,
    terms.temp - 2000, terms.temp + 1500, (exactCompensate prom d2).temp]

def words64 (prom : Vector UInt16 8) (d2 : Int) : List Int :=
  let terms := exactFirstOrder prom d2
  let correction := exactLowTemperature terms
  let below := terms.temp - 2000
  let far := terms.temp + 1500
  [terms.dT * (prom.get 6).toNat, terms.dT * (prom.get 6).toNat / 2 ^ 23,
    (prom.get 2).toNat * 2 ^ 16, (prom.get 4).toNat * terms.dT,
    (prom.get 4).toNat * terms.dT / 2 ^ 7, terms.off,
    (prom.get 1).toNat * 2 ^ 15, (prom.get 3).toNat * terms.dT,
    (prom.get 3).toNat * terms.dT / 2 ^ 8, terms.sens,
    terms.dT * terms.dT, terms.dT * terms.dT / 2 ^ 31, below * below, 5 * (below * below),
    5 * (below * below) / 2, 5 * (below * below) / 4, 7 * far, 7 * far * far, 11 * far,
    11 * far * far, 11 * far * far / 2, correction.t2, correction.off2, correction.sens2,
    (exactCompensate prom d2).temp, (exactCompensate prom d2).off, (exactCompensate prom d2).sens]

theorem fits64_div {value divisor : Int} (fits : Fits64 value) (positive : 0 < divisor) :
    Fits64 (value / divisor) := by
  constructor
  · rw [Int.le_ediv_iff_mul_le positive]
    have scaled : -2 ^ 63 * divisor ≤ -2 ^ 63 * 1 := by
      apply mul_le_mul_of_nonpos_left positive
      norm_num
    exact scaled.trans (by simpa using fits.1)
  · rw [Int.ediv_lt_iff_lt_mul positive]
    have scaled : 2 ^ 63 * 1 ≤ 2 ^ 63 * divisor := by
      apply mul_le_mul_of_nonneg_left positive
      norm_num
    exact lt_of_lt_of_le (by simpa using fits.2) scaled

section
variable (prom : Vector UInt16 8) (d2 : UInt32) (small : d2.toNat < 2 ^ 24)
include small

theorem firstOrder_near : Within 131070 ((exactFirstOrder prom d2.toNat).temp - 2000) := by
  have same : (exactFirstOrder prom d2.toNat).temp - (2000 : Int) =
      (exactFirstOrder prom d2.toNat).dT * prom[6].toNat / 2 ^ 23 := add_sub_cancel_left ..
  rw [same]
  exact temp_within prom d2 small

theorem corrects : Corrects (lowTemperature (firstOrder prom d2))
    (exactLowTemperature (exactFirstOrder prom d2.toNat)) :=
  lowTemperature_corrects _ _ (firstOrder_agrees prom d2 small) (firstOrder_near prom d2 small)
    (dT_within prom d2 small)

theorem words32_fit : ∀ value ∈ words32 prom d2.toNat, Fits32 value := by
  have word := word_within prom[5]
  have dT := dT_within prom d2 small
  have scaled := temp_within prom d2 small
  have near := firstOrder_near prom d2 small
  have final := (compensate_agrees prom d2 small).1.temp
  have range := Int32.toInt_lt (compensate prom d2).temp
  have range' := Int32.le_toInt (compensate prom d2).temp
  rw [final] at range range'
  have five : prom.get 5 = prom[5] := rfl
  have six : prom.get 6 = prom[6] := rfl
  simp only [words32, five, six, List.forall_mem_cons]
  unfold Fits32 Within at *
  refine ⟨?_, ?_, ?_, ?_, ?_, ?_, ?_, ⟨range', range⟩, List.forall_mem_nil _⟩ <;> omega

theorem words64_fit : ∀ value ∈ words64 prom d2.toNat, Fits64 value := by
  have dT := dT_within prom d2 small
  have near := firstOrder_near prom d2 small
  have reach : Within 134570 ((exactFirstOrder prom d2.toNat).temp + 1500) := by
    unfold Within at *
    omega
  have base (word : UInt16) (factor : Int) (le : Within (2 ^ 16) factor) :
      Fits64 (word.toNat * factor) :=
    within_fits64 (within_mul (word_within word) le) (by norm_num)
  have slope (word : UInt16) : Fits64 (word.toNat * (exactFirstOrder prom d2.toNat).dT) :=
    within_fits64 (product_within prom d2 small word) (by norm_num)
  have sensitivity : Fits64 ((exactFirstOrder prom d2.toNat).dT * prom[6].toNat) :=
    within_fits64 (within_mul dT (word_within prom[6])) (by norm_num)
  have off := wide_exact prom d2 small prom[2] prom[4] 16 7 (by norm_num) (by norm_num)
    (by norm_num)
  have sens := wide_exact prom d2 small prom[1] prom[3] 15 8 (by norm_num) (by norm_num)
    (by norm_num)
  have steep : Fits64 ((exactFirstOrder prom d2.toNat).dT * (exactFirstOrder prom d2.toNat).dT) :=
    within_fits64 (within_mul dT dT) (by norm_num)
  have square := within_mul near near
  have fives := within_fits64 (within_mul (show Within 5 5 by unfold Within; omega) square)
    (by norm_num)
  have seven := within_mul (show Within 7 7 by unfold Within; omega) reach
  have eleven := within_mul (show Within 11 11 by unfold Within; omega) reach
  have elevens := within_fits64 (within_mul eleven reach) (by norm_num)
  have corrected := corrects prom d2 small
  obtain ⟨final, finalOff, finalSens⟩ := compensate_agrees prom d2 small
  have narrow : Fits64 (exactCompensate prom d2.toNat).temp := by
    have range := Int32.toInt_lt (compensate prom d2).temp
    have range' := Int32.le_toInt (compensate prom d2).temp
    rw [final.temp] at range range'
    unfold Fits64
    omega
  simp only [words64, List.forall_mem_cons]
  -- In the order of the list: the temperature, the offset, the sensitivity, the corrections.
  exact ⟨sensitivity, fits64_div sensitivity (by norm_num),
    base prom[2] _ (by unfold Within; omega), slope prom[4],
    fits64_div (slope prom[4]) (by norm_num), within_fits64 off.2 (by norm_num),
    base prom[1] _ (by unfold Within; omega), slope prom[3],
    fits64_div (slope prom[3]) (by norm_num), within_fits64 sens.2 (by norm_num),
    steep, fits64_div steep (by norm_num), within_fits64 square (by norm_num), fives,
    fits64_div fives (by norm_num), fits64_div fives (by norm_num),
    within_fits64 seven (by norm_num), within_fits64 (within_mul seven reach) (by norm_num),
    within_fits64 eleven (by norm_num), elevens, fits64_div elevens (by norm_num),
    within_fits64 corrected.t2.2 (by norm_num), within_fits64 corrected.off2.2 (by norm_num),
    within_fits64 corrected.sens2.2 (by norm_num), narrow, within_fits64 finalOff (by norm_num),
    within_fits64 finalSens (by norm_num), List.forall_mem_nil _⟩

end

/-! ## Readings -/

theorem gy63Read_temp (dev : GY63Dev) (opened : 0 ≤ dev.spiFd) (first second : AdcAnswer) :
    ∃ reading, gy63Read dev (some first) (some second) = some reading ∧
      reading.temp.toInt = (exactCompensate dev.prom second.conversion).temp := by
  obtain ⟨d1, read1, value1⟩ := ms5611ReadAdc_some first
  obtain ⟨d2, read2, value2⟩ := ms5611ReadAdc_some second
  have small : d2.toNat < 2 ^ 24 := value2 ▸ conversion_small second
  refine ⟨⟨pressure d1 (compensate dev.prom d2), (compensate dev.prom d2).temp⟩, ?_, ?_⟩
  · rw [gy63Read, if_neg (Int32.not_lt.mpr opened), read1, read2]
  · rw [← value2]
    exact (compensate_agrees dev.prom d2 small).1.temp

/-- For every calibration a higher raw value never gives a lower temperature, and every
value computed before the pressure has its type, so the words read as the formula's. -/
theorem gy63Read_ordered (dev : GY63Dev) (opened : 0 ≤ dev.spiFd) :
    (∀ first other low high : AdcAnswer, low.conversion ≤ high.conversion →
      ∃ cooler warmer, gy63Read dev (some first) (some low) = some cooler ∧
        gy63Read dev (some other) (some high) = some warmer ∧ cooler.temp ≤ warmer.temp) ∧
    ∀ d2 : UInt32, d2.toNat < 2 ^ 24 →
      (∀ value ∈ words32 dev.prom d2.toNat, Fits32 value) ∧
      (∀ value ∈ words64 dev.prom d2.toNat, Fits64 value) ∧
      Agrees (firstOrder dev.prom d2) (exactFirstOrder dev.prom d2.toNat) ∧
      Corrects (lowTemperature (firstOrder dev.prom d2))
        (exactLowTemperature (exactFirstOrder dev.prom d2.toNat)) ∧
      Agrees (compensate dev.prom d2) (exactCompensate dev.prom d2.toNat) := by
  constructor
  · intro first other low high le
    obtain ⟨cooler, read, value⟩ := gy63Read_temp dev opened first low
    obtain ⟨warmer, read', value'⟩ := gy63Read_temp dev opened other high
    refine ⟨cooler, warmer, read, read', ?_⟩
    rw [Int32.le_iff_toInt_le, value, value']
    exact exactCompensate_mono dev.prom (Int.ofNat_le.mpr le)
  · intro d2 small
    exact ⟨words32_fit dev.prom d2 small, words64_fit dev.prom d2 small,
      firstOrder_agrees dev.prom d2 small, corrects dev.prom d2 small,
      (compensate_agrees dev.prom d2 small).1⟩

/-- One step across 20 degrees, and the largest raw value. -/
theorem gy63Read_ordered_calibrated :
    (∃ cooler warmer, gy63Read calibrated (some ⟨0, 0, 0⟩) (some ⟨0x80, 0, 0⟩) = some cooler ∧
      gy63Read calibrated (some ⟨0, 0, 0⟩) (some ⟨0x82, 0xC1, 0x3E⟩) = some warmer ∧
      cooler.temp ≤ warmer.temp) ∧
    ∀ value ∈ words64 calibrated.prom 0xFFFFFF, Fits64 value :=
  ⟨(gy63Read_ordered calibrated (by decide)).1 _ _ _ _ (by decide),
    ((gy63Read_ordered calibrated (by decide)).2 0xFFFFFF (by decide)).2.1⟩

end SensorNode.TemperatureOrder
