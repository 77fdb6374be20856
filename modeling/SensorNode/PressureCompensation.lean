import SensorNode.SignedWord

/-!
The MS5611 driver's `gy63_read`: the compensation formula in the fixed-width
arithmetic of the code, next to the same formula over unbounded integers. Every
step but one fits its type for all calibration words and conversions; the last
cast binds before the last shift, and narrows a value that need not fit.
-/

namespace SensorNode.PressureCompensation

open SignedWord

structure GY63Dev where
  spiFd : Int32
  prom : Vector UInt16 8
  deriving DecidableEq

structure AdcAnswer where
  first : UInt8
  second : UInt8
  third : UInt8
  deriving DecidableEq

def AdcAnswer.conversion (bytes : AdcAnswer) : Nat :=
  bytes.first.toNat * 2 ^ 16 + bytes.second.toNat * 2 ^ 8 + bytes.third.toNat

/-- No answer when one of the two SPI transfers fails. -/
def ms5611ReadAdc (answer : Option AdcAnswer) : Option UInt32 :=
  answer.map fun bytes =>
    (bytes.first.toUInt32 <<< (16 : UInt32)) |||
      (bytes.second.toUInt32 <<< (8 : UInt32)) ||| bytes.third.toUInt32

structure Terms (Word Wide : Type) where
  dT : Word
  temp : Word
  off : Wide
  sens : Wide
  deriving DecidableEq

structure Correction (Wide : Type) where
  t2 : Wide
  off2 : Wide
  sens2 : Wide
  deriving DecidableEq

/-! ## The code -/

def int64 (word : UInt16) : Int64 := word.toUInt64.toInt64

def firstOrder (prom : Vector UInt16 8) (d2 : UInt32) : Terms Int32 Int64 :=
  let dT := d2.toInt32 - (prom[5].toUInt32 <<< (8 : UInt32)).toInt32
  { dT := dT
    temp := (2000 : Int32) + ((dT.toInt64 * int64 prom[6]) >>> (23 : Int64)).toInt32
    off := (int64 prom[2] <<< (16 : Int64)) + ((int64 prom[4] * dT.toInt64) >>> (7 : Int64))
    sens := (int64 prom[1] <<< (15 : Int64)) + ((int64 prom[3] * dT.toInt64) >>> (8 : Int64)) }

/-- Below 20 degrees, and again below -15. -/
def lowTemperature (terms : Terms Int32 Int64) : Correction Int64 :=
  if terms.temp < 2000 then
    let below := (terms.temp - 2000).toInt64
    let off2 := (5 * (below * below)) >>> (1 : Int64)
    let sens2 := (5 * (below * below)) >>> (2 : Int64)
    let t2 := (terms.dT.toInt64 * terms.dT.toInt64) >>> (31 : Int64)
    if terms.temp < -1500 then
      let far := (terms.temp + 1500).toInt64
      ⟨t2, off2 + 7 * far * far, sens2 + ((11 * far * far) >>> (1 : Int64))⟩
    else ⟨t2, off2, sens2⟩
  else ⟨0, 0, 0⟩

def compensate (prom : Vector UInt16 8) (d2 : UInt32) : Terms Int32 Int64 :=
  let terms := firstOrder prom d2
  let correction := lowTemperature terms
  { dT := terms.dT
    temp := (terms.temp.toInt64 - correction.t2).toInt32
    off := terms.off - correction.off2
    sens := terms.sens - correction.sens2 }

/-- The cast to `int32_t` applies to the difference, before the shift by 15. -/
def pressure (d1 : UInt32) (terms : Terms Int32 Int64) : Int32 :=
  (((d1.toUInt64.toInt64 * terms.sens) >>> (21 : Int64)) - terms.off).toInt32 >>> (15 : Int32)

/-- `P` and `TEMP`; both are converted to double, the second divided by 100. -/
structure Reading where
  pressurePa : Int32
  temp : Int32
  deriving DecidableEq

def gy63Read (dev : GY63Dev) (first second : Option AdcAnswer) : Option Reading :=
  if dev.spiFd < 0 then none
  else
    match ms5611ReadAdc first, ms5611ReadAdc second with
    | some d1, some d2 =>
        let terms := compensate dev.prom d2
        some ⟨pressure d1 terms, terms.temp⟩
    | _, _ => none

/-! ## The formula over unbounded integers -/

def exactFirstOrder (prom : Vector UInt16 8) (d2 : Int) : Terms Int Int :=
  let dT := d2 - prom[5].toNat * 2 ^ 8
  { dT := dT
    temp := (2000 : Int) + dT * prom[6].toNat / 2 ^ 23
    off := prom[2].toNat * 2 ^ 16 + prom[4].toNat * dT / 2 ^ 7
    sens := prom[1].toNat * 2 ^ 15 + prom[3].toNat * dT / 2 ^ 8 }

def exactLowTemperature (terms : Terms Int Int) : Correction Int :=
  if terms.temp < 2000 then
    let below := terms.temp - 2000
    let off2 := 5 * (below * below) / 2
    let sens2 := 5 * (below * below) / 4
    let t2 := terms.dT * terms.dT / 2 ^ 31
    if terms.temp < -1500 then
      let far := terms.temp + 1500
      ⟨t2, off2 + 7 * far * far, sens2 + 11 * far * far / 2⟩
    else ⟨t2, off2, sens2⟩
  else ⟨0, 0, 0⟩

def exactCompensate (prom : Vector UInt16 8) (d2 : Int) : Terms Int Int :=
  let terms := exactFirstOrder prom d2
  let correction := exactLowTemperature terms
  { dT := terms.dT
    temp := terms.temp - correction.t2
    off := terms.off - correction.off2
    sens := terms.sens - correction.sens2 }

def exactPressure (d1 : Int) (terms : Terms Int Int) : Int :=
  (d1 * terms.sens / 2 ^ 21 - terms.off) / 2 ^ 15

/-! ## What fits -/

theorem conversion_small (bytes : AdcAnswer) : bytes.conversion < 2 ^ 24 := by
  have first := bytes.first.toNat_lt
  have second := bytes.second.toNat_lt
  have third := bytes.third.toNat_lt
  unfold AdcAnswer.conversion
  omega

theorem ms5611ReadAdc_some (bytes : AdcAnswer) :
    ∃ result, ms5611ReadAdc (some bytes) = some result ∧ result.toNat = bytes.conversion := by
  refine ⟨_, rfl, ?_⟩
  have first := bytes.first.toNat_lt
  have second := bytes.second.toNat_lt
  have third := bytes.third.toNat_lt
  have high : bytes.first.toNat <<< 16 % 2 ^ 32 = bytes.first.toNat <<< 8 <<< 8 := by omega
  have middle : bytes.second.toNat <<< 8 % 2 ^ 32 = bytes.second.toNat <<< 8 := by omega
  simp only [UInt32.toNat_or, UInt32.toNat_shiftLeft, UInt8.toNat_toUInt32]
  show (bytes.first.toNat <<< 16 % 2 ^ 32 ||| bytes.second.toNat <<< 8 % 2 ^ 32) |||
    bytes.third.toNat = _
  rw [high, middle, ← Nat.shiftLeft_or_distrib, ← Nat.shiftLeft_add_eq_or_of_lt third,
    ← Nat.shiftLeft_add_eq_or_of_lt second]
  unfold AdcAnswer.conversion
  omega

theorem word_within (word : UInt16) : Within 65535 word.toNat := by
  have small := word.toNat_lt
  unfold Within
  omega

structure Agrees (terms : Terms Int32 Int64) (exact : Terms Int Int) : Prop where
  dT : terms.dT.toInt = exact.dT
  temp : terms.temp.toInt = exact.temp
  off : terms.off.toInt = exact.off
  sens : terms.sens.toInt = exact.sens

section
variable (prom : Vector UInt16 8) (d2 : UInt32) (small : d2.toNat < 2 ^ 24)
include small

theorem dT_exact : (firstOrder prom d2).dT.toInt = (exactFirstOrder prom d2.toNat).dT := by
  have word := prom[5].toNat_lt
  have shifted : (prom[5].toUInt32 <<< (8 : UInt32)).toNat = prom[5].toNat * 2 ^ 8 := by
    rw [UInt32.toNat_shiftLeft, UInt16.toNat_toUInt32]
    show prom[5].toNat <<< 8 % 2 ^ 32 = _
    omega
  have left := signed32_exact d2 (by omega)
  have right := signed32_exact (prom[5].toUInt32 <<< (8 : UInt32)) (by omega)
  have fits : Fits32 ((d2.toNat : Int) - (prom[5].toUInt32 <<< (8 : UInt32)).toNat) := by
    unfold Fits32
    omega
  have exact' := sub32_exact left right fits
  rw [shifted] at exact'
  simpa [firstOrder, exactFirstOrder] using exact'

theorem dT_within : Within (2 ^ 24) (exactFirstOrder prom d2.toNat).dT := by
  have word := prom[5].toNat_lt
  simp only [exactFirstOrder, Within]
  omega

theorem product_within (word : UInt16) :
    Within (65535 * 2 ^ 24) (word.toNat * (exactFirstOrder prom d2.toNat).dT) :=
  within_mul (word_within word) (dT_within prom d2 small)

theorem product_exact (word : UInt16) :
    (int64 word * (firstOrder prom d2).dT.toInt64).toInt =
      word.toNat * (exactFirstOrder prom d2.toNat).dT :=
  mul_exact (unsigned16_exact word) (widen_exact (dT_exact prom d2 small))
    (within_fits64 (product_within prom d2 small word) (by norm_num))

theorem wide_exact (base slope : UInt16) (left right : Nat) (high : left ≤ 16) (low : 7 ≤ right)
    (small' : right < 64) :
    ((int64 base <<< Int64.ofNat left) +
        ((int64 slope * (firstOrder prom d2).dT.toInt64) >>> Int64.ofNat right)).toInt =
      base.toNat * 2 ^ left + slope.toNat * (exactFirstOrder prom d2.toNat).dT / 2 ^ right ∧
    Within (2 ^ 34) (base.toNat * 2 ^ left +
      slope.toNat * (exactFirstOrder prom d2.toNat).dT / 2 ^ right) := by
  have power : (2 : Int) ^ left ≤ 2 ^ 16 := pow_le_pow_right₀ (by norm_num) high
  have factor : Within (2 ^ 16) ((2 : Int) ^ left) := by
    have positive : (0 : Int) < 2 ^ left := by positivity
    unfold Within
    omega
  have front := within_mul (word_within base) factor
  have back : Within (65535 * 2 ^ 17)
      (slope.toNat * (exactFirstOrder prom d2.toNat).dT / 2 ^ right) := by
    have divisor : (2 : Int) ^ 7 ≤ 2 ^ right := pow_le_pow_right₀ (by norm_num) low
    apply within_div (by positivity)
    apply within_mono (product_within prom d2 small slope)
    omega
  have total := within_add front back
  refine ⟨?_, within_mono total (by norm_num)⟩
  apply add_exact _ _ (within_fits64 total (by norm_num))
  · exact shiftLeft_exact (unsigned16_exact base) left (by omega) (by positivity)
      (within_fits64 front (by norm_num))
  · exact shiftRight_exact (product_exact prom d2 small slope) right small'

theorem temp_within :
    Within 131070 ((exactFirstOrder prom d2.toNat).dT * prom[6].toNat / 2 ^ 23) := by
  apply within_div (by positivity)
  exact within_mono (within_mul (dT_within prom d2 small) (word_within prom[6])) (by norm_num)

theorem firstOrder_agrees : Agrees (firstOrder prom d2) (exactFirstOrder prom d2.toNat) := by
  have dT := dT_exact prom d2 small
  refine ⟨dT, ?_, (wide_exact prom d2 small _ _ 16 7 (by norm_num) (by norm_num)
      (by norm_num)).1,
    (wide_exact prom d2 small _ _ 15 8 (by norm_num) (by norm_num) (by norm_num)).1⟩
  have product := mul_exact (widen_exact dT) (unsigned16_exact prom[6])
    (within_fits64 (within_mul (dT_within prom d2 small) (word_within prom[6])) (by norm_num))
  have scaled := temp_within prom d2 small
  have narrowed := narrow_exact (shiftRight_exact product 23 (by norm_num))
    (within_fits32 scaled (by norm_num))
  have base : Within 2000 2000 := by unfold Within; omega
  have two : (2000 : Int32).toInt = 2000 := rfl
  exact add32_exact two narrowed (within_fits32 (within_add base scaled) (by norm_num))

end

/-- The corrections read as integers, and stay far below 64 bits. -/
structure Corrects (correction : Correction Int64) (exact : Correction Int) : Prop where
  t2 : correction.t2.toInt = exact.t2 ∧ Within (2 ^ 17) exact.t2
  off2 : correction.off2.toInt = exact.off2 ∧ Within (2 ^ 38) exact.off2
  sens2 : correction.sens2.toInt = exact.sens2 ∧ Within (2 ^ 37) exact.sens2

theorem square_exact {word : Int32} {value : Int} (reads : word.toInt = value)
    (near : Within 134570 value) :
    (word.toInt64 * word.toInt64).toInt = value * value ∧
      Within (134570 * 134570) (value * value) := by
  have square := within_mul near near
  exact ⟨mul_exact (widen_exact reads) (widen_exact reads)
    (within_fits64 square (by norm_num)), square⟩

theorem scaled_square_exact (factor : Int64) (scale : Int) {word : Int32} {value : Int}
    (constant : factor.toInt = scale) (small : Within 11 scale) (reads : word.toInt = value)
    (near : Within 134570 value) :
    (factor * word.toInt64 * word.toInt64).toInt = scale * value * value ∧
      Within (11 * 134570 * 134570) (scale * value * value) := by
  have once := within_mul small near
  have twice := within_mul once near
  have first := mul_exact constant (widen_exact reads) (within_fits64 once (by norm_num))
  exact ⟨mul_exact first (widen_exact reads) (within_fits64 twice (by norm_num)), twice⟩

theorem fives_exact {word : Int32} {value : Int} (reads : word.toInt = value)
    (near : Within 131070 value) :
    ((5 * (word.toInt64 * word.toInt64)) >>> (1 : Int64)).toInt = 5 * (value * value) / 2 ∧
      Within (5 * (65535 * 131070)) (5 * (value * value) / 2) ∧
      ((5 * (word.toInt64 * word.toInt64)) >>> (2 : Int64)).toInt = 5 * (value * value) / 4 ∧
      Within (5 * (65535 * 65535)) (5 * (value * value) / 4) := by
  have five : (5 : Int64).toInt = 5 := rfl
  have product := within_mul (show Within 5 5 by unfold Within; omega) (within_mul near near)
  have scaled : (5 * (word.toInt64 * word.toInt64)).toInt = 5 * (value * value) :=
    mul_exact five (square_exact reads (within_mono near (by norm_num))).1
      (within_fits64 product (by norm_num))
  exact ⟨shiftRight_exact scaled 1 (by norm_num),
    within_div (by norm_num) (within_mono product (by norm_num)),
    shiftRight_exact scaled 2 (by norm_num),
    within_div (by norm_num) (within_mono product (by norm_num))⟩

theorem far_exact {word : Int32} {value : Int} (reads : word.toInt = value)
    (near : Within 134570 value) :
    (7 * word.toInt64 * word.toInt64).toInt = 7 * value * value ∧
      Within (11 * 134570 * 134570) (7 * value * value) ∧
      ((11 * word.toInt64 * word.toInt64) >>> (1 : Int64)).toInt = 11 * value * value / 2 ∧
      Within (11 * 134570 * 67285) (11 * value * value / 2) := by
  obtain ⟨seven, sevenBound⟩ :=
    scaled_square_exact 7 7 rfl (by unfold Within; omega) reads near
  obtain ⟨eleven, elevenBound⟩ :=
    scaled_square_exact 11 11 rfl (by unfold Within; omega) reads near
  exact ⟨seven, sevenBound, shiftRight_exact eleven 1 (by norm_num),
    within_div (by norm_num) (within_mono elevenBound (by norm_num))⟩

section
variable (terms : Terms Int32 Int64) (exact' : Terms Int Int) (agrees : Agrees terms exact')
  (near : Within 131070 (exact'.temp - 2000)) (span : Within (2 ^ 24) exact'.dT)
include agrees near span

theorem lowTemperature_corrects : Corrects (lowTemperature terms) (exactLowTemperature exact') := by
  have cold : terms.temp < 2000 ↔ exact'.temp < 2000 := by
    rw [Int32.lt_iff_toInt_lt, agrees.temp]
    rfl
  have colder : terms.temp < -1500 ↔ exact'.temp < -1500 := by
    rw [Int32.lt_iff_toInt_lt, agrees.temp]
    rfl
  unfold lowTemperature exactLowTemperature
  by_cases below : exact'.temp < 2000
  · have two : (2000 : Int32).toInt = 2000 := rfl
    have drop : (terms.temp - 2000).toInt = exact'.temp - 2000 :=
      sub32_exact agrees.temp two (within_fits32 near (by norm_num))
    obtain ⟨half, halfBound, quarter, quarterBound⟩ := fives_exact drop near
    have slope := within_mul span span
    -- The square of the difference is computed in 64 bits.
    have t2 := shiftRight_exact (mul_exact (widen_exact agrees.dT) (widen_exact agrees.dT)
      (within_fits64 slope (by norm_num))) 31 (by norm_num)
    have t2Bound : Within (2 ^ 17) (exact'.dT * exact'.dT / 2 ^ 31) :=
      within_div (by norm_num) (within_mono slope (by norm_num))
    rw [if_pos (cold.mpr below), if_pos below]
    by_cases far : exact'.temp < -1500
    · have rise : (terms.temp + 1500).toInt = exact'.temp + 1500 := by
        have raise : (1500 : Int32).toInt = 1500 := rfl
        apply add32_exact agrees.temp raise
        unfold Fits32 Within at *
        omega
      -- Below -15 degrees both corrections grow once more.
      have reach : Within 134570 (exact'.temp + 1500) := by
        unfold Within at *
        omega
      obtain ⟨seven, sevenBound, eleven, elevenBound⟩ := far_exact rise reach
      have off2 := within_add halfBound sevenBound
      have sens2 := within_add quarterBound elevenBound
      rw [if_pos (colder.mpr far), if_pos far]
      exact ⟨⟨t2, t2Bound⟩,
        ⟨add_exact half seven (within_fits64 off2 (by norm_num)), within_mono off2 (by norm_num)⟩,
        ⟨add_exact quarter eleven (within_fits64 sens2 (by norm_num)),
          within_mono sens2 (by norm_num)⟩⟩
    · rw [if_neg (mt colder.mp far), if_neg far]
      exact ⟨⟨t2, t2Bound⟩, ⟨half, within_mono halfBound (by norm_num)⟩,
        ⟨quarter, within_mono quarterBound (by norm_num)⟩⟩
  · rw [if_neg (mt cold.mp below), if_neg below]
    have zero (bound : Int) (nonneg : 0 ≤ bound) : Within bound 0 := by
      unfold Within
      omega
    exact ⟨⟨rfl, zero _ (by norm_num)⟩, ⟨rfl, zero _ (by norm_num)⟩, ⟨rfl, zero _ (by norm_num)⟩⟩

end

/-! ## The pressure -/

section
variable (prom : Vector UInt16 8) (d1 d2 : UInt32) (small1 : d1.toNat < 2 ^ 24)
  (small2 : d2.toNat < 2 ^ 24)
include small2

/-- All terms are exact: no step up to `OFF` and `SENS` leaves its type. -/
theorem compensate_agrees :
    Agrees (compensate prom d2) (exactCompensate prom d2.toNat) ∧
      Within (2 ^ 39) (exactCompensate prom d2.toNat).off ∧
      Within (2 ^ 38) (exactCompensate prom d2.toNat).sens := by
  have agrees := firstOrder_agrees prom d2 small2
  have scaled := temp_within prom d2 small2
  have near : Within 131070 ((exactFirstOrder prom d2.toNat).temp - 2000) := by
    have same : (exactFirstOrder prom d2.toNat).temp - (2000 : Int) =
        (exactFirstOrder prom d2.toNat).dT * prom[6].toNat / 2 ^ 23 := add_sub_cancel_left ..
    rw [same]
    exact scaled
  have corrects := lowTemperature_corrects _ _ agrees near (dT_within prom d2 small2)
  have off := within_sub
    (wide_exact prom d2 small2 prom[2] prom[4] 16 7 (by norm_num) (by norm_num) (by norm_num)).2
    corrects.off2.2
  have sens := within_sub
    (wide_exact prom d2 small2 prom[1] prom[3] 15 8 (by norm_num) (by norm_num) (by norm_num)).2
    corrects.sens2.2
  have t2 := corrects.t2.2
  have narrow : Fits32 ((exactFirstOrder prom d2.toNat).temp -
      (exactLowTemperature (exactFirstOrder prom d2.toNat)).t2) := by
    unfold Fits32 Within at *
    omega
  have wide : Fits64 ((exactFirstOrder prom d2.toNat).temp -
      (exactLowTemperature (exactFirstOrder prom d2.toNat)).t2) := by
    unfold Fits64 Fits32 at *
    omega
  refine ⟨⟨agrees.dT, ?_, ?_, ?_⟩, within_mono off (by norm_num), within_mono sens (by norm_num)⟩
  · exact narrow_exact (sub_exact (widen_exact agrees.temp) corrects.t2.1 wide) narrow
  · exact sub_exact agrees.off corrects.off2.1 (within_fits64 off (by norm_num))
  · exact sub_exact agrees.sens corrects.sens2.1 (within_fits64 sens (by norm_num))

include small1

theorem difference_exact :
    (((d1.toUInt64.toInt64 * (compensate prom d2).sens) >>> (21 : Int64)) -
        (compensate prom d2).off).toInt =
      d1.toNat * (exactCompensate prom d2.toNat).sens / 2 ^ 21 -
        (exactCompensate prom d2.toNat).off := by
  obtain ⟨agrees, off, sens⟩ := compensate_agrees prom d2 small2
  have reading : Within (2 ^ 24) d1.toNat := by
    unfold Within
    omega
  have product := within_mul reading sens
  have scaled : Within (2 ^ 41) (d1.toNat * (exactCompensate prom d2.toNat).sens / 2 ^ 21) :=
    within_div (by norm_num) (within_mono product (by norm_num))
  have multiplied := mul_exact (unsigned32_exact d1) agrees.sens
    (within_fits64 product (by norm_num))
  exact sub_exact (shiftRight_exact multiplied 21 (by norm_num)) agrees.off
    (within_fits64 (within_sub scaled off) (by norm_num))

/-- The stored pressure is the formula's exactly for results of 17 bits. -/
theorem pressure_iff :
    (pressure d1 (compensate prom d2)).toInt =
        exactPressure d1.toNat (exactCompensate prom d2.toNat) ↔
      -65536 ≤ exactPressure d1.toNat (exactCompensate prom d2.toNat) ∧
        exactPressure d1.toNat (exactCompensate prom d2.toNat) ≤ 65535 := by
  have lossless := narrow_shift_iff (difference_exact prom d1 d2 small1 small2) 15 (by norm_num)
  refine lossless.trans ?_
  unfold Fits32 exactPressure
  omega

theorem pressure_turns :
    (2 ^ 17 : Int) ∣ (pressure d1 (compensate prom d2)).toInt -
      exactPressure d1.toNat (exactCompensate prom d2.toNat) := by
  have reads := difference_exact prom d1 d2 small1 small2
  have shifted : (pressure d1 (compensate prom d2)).toInt = _ :=
    shiftRight32_exact rfl 15 (by norm_num)
  rw [shifted, Int64.toInt_toInt32, reads, exactPressure]
  have parts := Int.bdiv_add_bmod (d1.toNat * (exactCompensate prom d2.toNat).sens / 2 ^ 21 -
    (exactCompensate prom d2.toNat).off) (2 ^ 32)
  push_cast at parts ⊢
  omega

end

def exactRead (dev : GY63Dev) (first second : AdcAnswer) : Int :=
  exactPressure first.conversion (exactCompensate dev.prom second.conversion)

section
variable (dev : GY63Dev) (first second : AdcAnswer) (opened : 0 ≤ dev.spiFd)
include opened

theorem gy63Read_open : ∃ d1 d2 : UInt32,
    d1.toNat = first.conversion ∧ d2.toNat = second.conversion ∧
      gy63Read dev (some first) (some second) =
        some ⟨pressure d1 (compensate dev.prom d2), (compensate dev.prom d2).temp⟩ := by
  obtain ⟨d1, read1, value1⟩ := ms5611ReadAdc_some first
  obtain ⟨d2, read2, value2⟩ := ms5611ReadAdc_some second
  refine ⟨d1, d2, value1, value2, ?_⟩
  rw [gy63Read, if_neg (Int32.not_lt.mpr opened), read1, read2]

theorem gy63Read_formula (reading : Reading)
    (read : gy63Read dev (some first) (some second) = some reading) :
    reading.temp.toInt = (exactCompensate dev.prom second.conversion).temp ∧
      (2 ^ 17 : Int) ∣ reading.pressurePa.toInt - exactRead dev first second ∧
      (-65536 ≤ exactRead dev first second → exactRead dev first second ≤ 65535 →
        reading.pressurePa.toInt = exactRead dev first second) := by
  obtain ⟨d1, d2, value1, value2, shown⟩ := gy63Read_open dev first second opened
  have small1 : d1.toNat < 2 ^ 24 := value1 ▸ conversion_small first
  have small2 : d2.toNat < 2 ^ 24 := value2 ▸ conversion_small second
  obtain rfl := Option.some.inj (shown.symm.trans read)
  rw [exactRead, ← value1, ← value2]
  exact ⟨(compensate_agrees dev.prom d2 small2).1.temp,
    pressure_turns dev.prom d1 d2 small1 small2,
    fun low high => (pressure_iff dev.prom d1 d2 small1 small2).mpr ⟨low, high⟩⟩

end

/-- Of an open device the stored pressure is the formula's result, in pascal, exactly
when that result has 17 bits. -/
theorem gy63Read_exact_iff (dev : GY63Dev) (first second : AdcAnswer) (opened : 0 ≤ dev.spiFd) :
    (∃ reading, gy63Read dev (some first) (some second) = some reading ∧
        reading.pressurePa.toInt = exactRead dev first second) ↔
      -65536 ≤ exactRead dev first second ∧ exactRead dev first second ≤ 65535 := by
  obtain ⟨d1, d2, value1, value2, shown⟩ := gy63Read_open dev first second opened
  have small1 : d1.toNat < 2 ^ 24 := value1 ▸ conversion_small first
  have small2 : d2.toNat < 2 ^ 24 := value2 ▸ conversion_small second
  have lossless := pressure_iff dev.prom d1 d2 small1 small2
  rw [value1, value2] at lossless
  rw [shown]
  constructor
  · rintro ⟨reading, read, same⟩
    rw [← Option.some.inj read] at same
    exact lossless.mp same
  · intro small
    exact ⟨_, rfl, lossless.mpr small⟩

def calibrated : GY63Dev := ⟨3, #v[0, 40127, 36924, 23317, 23282, 33464, 28312, 0]⟩

theorem gy63Read_exact_iff_half :
    (0 : Int32) ≤ calibrated.spiFd ∧
      ∃ reading, gy63Read calibrated (some ⟨0x6A, 0, 0⟩) (some ⟨0x82, 0xC1, 0x3E⟩) = some reading ∧
        reading.pressurePa.toInt = exactRead calibrated ⟨0x6A, 0, 0⟩ ⟨0x82, 0xC1, 0x3E⟩ :=
  ⟨by decide, (gy63Read_exact_iff calibrated _ _ (by decide)).mpr (by decide)⟩

/-- Near sea level the formula gives 100009 Pa and the code stores -31063. -/
theorem gy63Read_narrowed : ¬ ∀ (dev : GY63Dev) (first second : AdcAnswer), 0 ≤ dev.spiFd →
    ∃ reading, gy63Read dev (some first) (some second) = some reading ∧
      reading.pressurePa.toInt = exactRead dev first second := by
  intro always
  obtain ⟨reading, read, same⟩ :=
    always calibrated ⟨0x8A, 0xA2, 0x1A⟩ ⟨0x82, 0xC1, 0x3E⟩ (by decide)
  have stored : gy63Read calibrated (some ⟨0x8A, 0xA2, 0x1A⟩) (some ⟨0x82, 0xC1, 0x3E⟩) =
      some ⟨-31063, 2007⟩ := by decide
  have formula : exactRead calibrated ⟨0x8A, 0xA2, 0x1A⟩ ⟨0x82, 0xC1, 0x3E⟩ = 100009 := by decide
  rw [stored] at read
  cases read
  rw [formula] at same
  exact absurd same (by decide)

end SensorNode.PressureCompensation
