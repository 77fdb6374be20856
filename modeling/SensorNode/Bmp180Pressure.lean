import SensorNode.Bmp180Temperature
import Mathlib.Data.Int.ModEq

/-!
`compensate_pressure` of the BMP180 driver, stage by stage as the code computes it,
in checked signed and wrapping unsigned arithmetic. Each stage has a result exactly
under a condition on what enters it, so the whole has one exactly when a few
inequalities hold between the calibration words, `B5` and the raw pressure.
-/

namespace SensorNode.Bmp180Pressure

open SignedWord CheckedWord Bmp180Temperature

/-! ## The code -/

inductive Oss where
  | ultraLowPower
  | standard
  | highRes
  | ultraHighRes
  deriving DecidableEq

def Oss.value : Oss → Nat
  | .ultraLowPower => 0
  | .standard => 1
  | .highRes => 2
  | .ultraHighRes => 3

structure PressureBytes where
  msb : UInt8
  lsb : UInt8
  xlsb : UInt8
  deriving DecidableEq

def PressureBytes.word (bytes : PressureBytes) : UInt32 :=
  (bytes.msb.toUInt32 <<< (16 : UInt32)) ||| (bytes.lsb.toUInt32 <<< (8 : UInt32)) |||
    bytes.xlsb.toUInt32

/-- No bytes when the command or one of the reads fails. -/
def readRawPressure (oss : Oss) (answer : Option PressureBytes) : Option Int :=
  answer.map fun bytes => shiftRight (signed bytes.word.toNat) (8 - oss.value)

def pressureB3 (c : Bmp180Calib) (b6 : Int) (oss : Oss) : Option Int := do
  let square ← mul b6 b6
  let bent ← mul c.b2.toInt (shiftRight square 12)
  let x1 := shiftRight bent 11
  let sloped ← mul c.ac2.toInt b6
  let x2 := shiftRight sloped 11
  let x3 ← add x1 x2
  let base ← mul c.ac1.toInt 4
  let sum ← add base x3
  let scaled ← shiftLeft sum oss.value
  let rounded ← add scaled 2
  div rounded 4

def pressureB4 (c : Bmp180Calib) (b6 : Int) : Option Int := do
  let sloped ← mul c.ac3.toInt b6
  let x1 := shiftRight sloped 13
  let square ← mul b6 b6
  let bent ← mul c.b1.toInt (shiftRight square 12)
  let x2 := shiftRight bent 16
  let sum ← add x1 x2
  let rounded ← add sum 2
  let x3 := shiftRight rounded 2
  let offset ← add x3 32768
  return shiftRight (unsigned (c.ac4.toNat * unsigned offset)) 15

def pressureB7 (rawP b3 : Int) (oss : Oss) : Int :=
  unsigned (unsigned (unsigned rawP - unsigned b3) * shiftRight 50000 oss.value)

def firstPressure (b4 b7 : Int) : Option Int :=
  if b7 < 0x80000000 then do
    let quotient ← divUnsigned (unsigned (b7 * 2)) b4
    return signed quotient
  else do
    let quotient ← divUnsigned b7 b4
    return signed (unsigned (quotient * 2))

def secondOrder (p : Int) : Option Int := do
  let square ← mul (shiftRight p 8) (shiftRight p 8)
  let bent ← mul square 3038
  let x1 := shiftRight bent 16
  let sloped ← mul (-7357) p
  let x2 := shiftRight sloped 16
  let sum ← add x1 x2
  let rounded ← add sum 3791
  add p (shiftRight rounded 4)

/-- In pascal; the code returns it as a float. -/
def compensatePressure (c : Bmp180Calib) (rawT rawP : Int) (oss : Oss) : Option Int := do
  let b5 ← computeB5 c rawT
  let b6 ← sub b5 4000
  let b3 ← pressureB3 c b6 oss
  let b4 ← pressureB4 c b6
  let p ← firstPressure b4 (pressureB7 rawP b3 oss)
  secondOrder p

/-! ## The condition -/

section
variable (c : Bmp180Calib) (b5 : Int) (oss : Oss) (rawP : Int)

def bend : Int := (b5 - 4000) * (b5 - 4000) / 2 ^ 12

def offsetOf : Int :=
  ((c.ac1.toInt * 4 + (c.b2.toInt * bend b5 / 2 ^ 11 + c.ac2.toInt * (b5 - 4000) / 2 ^ 11)) *
    2 ^ oss.value + 2).tdiv 4

def scaleOf : Int :=
  (c.ac3.toInt * (b5 - 4000) / 2 ^ 13 + c.b1.toInt * bend b5 / 2 ^ 16 + 2) / 2 ^ 2 + 32768

/-- The product with `AC4` keeps 32 bits, of which the upper 17 divide. -/
def divisorOf : Int := c.ac4.toNat * scaleOf c b5 % 2 ^ 32 / 2 ^ 15

def dividendOf : Int := (rawP - offsetOf c b5 oss) * (50000 / 2 ^ oss.value) % 2 ^ 32

/-- Twice the quotient is below 215296, or a tiny divisor makes it wrap to a small number. -/
def Moderate (divisor dividend : Int) : Prop :=
  dividend < 107648 * divisor ∨
    (divisor = 1 ∧ (2 ^ 31 - 107520 ≤ dividend ∧ dividend < 2 ^ 31 + 107648 ∨
      2 ^ 32 - 107520 ≤ dividend)) ∨
    (divisor = 2 ∧ 2 ^ 32 - 215040 ≤ dividend)

/-- `B5` is near 4000, both bent products fit, the divisor is not zero and the quotient
is moderate. -/
structure Regular : Prop where
  near : -46340 ≤ b5 - 4000 ∧ b5 - 4000 ≤ 46340
  b2 : Fits32 (c.b2.toInt * bend b5)
  b1 : Fits32 (c.b1.toInt * bend b5)
  divisor : 2 ^ 15 ≤ c.ac4.toNat * scaleOf c b5 % 2 ^ 32
  quotient : Moderate (divisorOf c b5) (dividendOf c b5 oss rawP)

end

/-! ## Stages -/

theorem square_fits_iff (value : Int) :
    Fits32 (value * value) ↔ -46340 ≤ value ∧ value ≤ 46340 := by
  unfold Fits32
  constructor
  · intro ⟨_, high⟩
    constructor
    · by_contra low
      nlinarith only [high, low]
    · by_contra low
      nlinarith only [high, low]
  · intro ⟨low, high⟩
    constructor
    · nlinarith only [mul_self_nonneg value]
    · nlinarith only [low, high]

theorem sloped_within (word : Int16) {value : Int} (near : -46340 ≤ value ∧ value ≤ 46340) :
    Within (2 ^ 15 * 46340) (word.toInt * value) :=
  within_mul (signed16_within word) near

theorem fits32_within {value : Int} (fits : Fits32 value) : Within (2 ^ 31) value := by
  unfold Fits32 at fits
  unfold Within
  omega

theorem constant_within (value : Int) (nonneg : 0 ≤ value) : Within value value := by
  unfold Within
  omega

section
variable (c : Bmp180Calib) (b5 : Int) (oss : Oss)

theorem pressureB3_some (b3 : Int) :
    pressureB3 c (b5 - 4000) oss = some b3 ↔
      ((-46340 ≤ b5 - 4000 ∧ b5 - 4000 ≤ 46340) ∧ Fits32 (c.b2.toInt * bend b5)) ∧
        offsetOf c b5 oss = b3 := by
  simp only [pressureB3, mul_bind_some, add_bind_some, shiftLeft_bind_some, div_some,
    square_fits_iff]
  constructor
  · rintro ⟨near, bent, _, _, _, _, _, _, _, _, same⟩
    exact ⟨⟨near, bent⟩, same⟩
  · rintro ⟨⟨near, bent⟩, same⟩
    -- Past the two products nothing can overflow: each bound follows from the one before.
    have sloped := sloped_within c.ac2 near
    have x1 : Within (2 ^ 20)
        (shiftRight (c.b2.toInt * shiftRight ((b5 - 4000) * (b5 - 4000)) 12) 11) :=
      within_shiftRight 11 (fits32_within bent)
    have x2 : Within 741440 (shiftRight (c.ac2.toInt * (b5 - 4000)) 11) :=
      within_shiftRight 11 sloped
    have x3 := within_add x1 x2
    have base := within_mul (signed16_within c.ac1) (constant_within 4 (by norm_num))
    have sum := within_add base x3
    have power : Within 8 (2 ^ oss.value) := by
      cases oss <;> exact ⟨by decide, by decide⟩
    have scaled := within_mul sum power
    have rounded := within_add scaled (constant_within 2 (by norm_num))
    exact ⟨near, bent, within_fits32 sloped (by norm_num), within_fits32 x3 (by norm_num),
      within_fits32 base (by norm_num), within_fits32 sum (by norm_num),
      within_fits32 scaled (by norm_num), within_fits32 rounded (by norm_num), by norm_num,
      within_fits32 (within_tdiv 4 rounded) (by norm_num), same⟩

theorem pressureB4_some (near : -46340 ≤ b5 - 4000 ∧ b5 - 4000 ≤ 46340) (b4 : Int) :
    pressureB4 c (b5 - 4000) = some b4 ↔
      Fits32 (c.b1.toInt * bend b5) ∧ divisorOf c b5 = b4 := by
  have value :
      shiftRight (unsigned (c.ac4.toNat * unsigned (scaleOf c b5))) 15 = divisorOf c b5 := by
    have product := (Int.mod_modEq (scaleOf c b5) (2 ^ 32)).mul_left c.ac4.toNat
    exact congrArg (· / 2 ^ 15) product
  simp only [pressureB4, mul_bind_some, add_bind_some, square_fits_iff]
  constructor
  · rintro ⟨_, _, bent, _, _, _, same⟩
    exact ⟨bent, value.symm.trans (Option.some.inj same)⟩
  · rintro ⟨bent, same⟩
    have sloped := sloped_within c.ac3 near
    have x1 : Within 185360 (shiftRight (c.ac3.toInt * (b5 - 4000)) 13) :=
      within_shiftRight 13 sloped
    have x2 : Within (2 ^ 15)
        (shiftRight (c.b1.toInt * shiftRight ((b5 - 4000) * (b5 - 4000)) 12) 16) :=
      within_shiftRight 16 (fits32_within bent)
    have sum := within_add x1 x2
    have rounded := within_add sum (constant_within 2 (by norm_num))
    have x3 : Within (185360 + 2 ^ 15 + 2) (shiftRight (shiftRight (c.ac3.toInt * (b5 - 4000)) 13 +
        shiftRight (c.b1.toInt * shiftRight ((b5 - 4000) * (b5 - 4000)) 12) 16 + 2) 2) :=
      within_shiftRight 2 (within_mono rounded (by norm_num))
    have offset := within_add x3 (constant_within 32768 (by norm_num))
    exact ⟨within_fits32 sloped (by norm_num), near, bent, within_fits32 sum (by norm_num),
      within_fits32 rounded (by norm_num), within_fits32 offset (by norm_num),
      congrArg some (value.trans same)⟩

end

theorem pressureB7_eq (c : Bmp180Calib) (b5 rawP : Int) (oss : Oss) :
    pressureB7 rawP (offsetOf c b5 oss) oss = dividendOf c b5 oss rawP := by
  have difference : unsigned (unsigned rawP - unsigned (offsetOf c b5 oss)) =
      unsigned (rawP - offsetOf c b5 oss) :=
    (Int.sub_emod rawP (offsetOf c b5 oss) (2 ^ 32)).symm
  have product := (Int.mod_modEq (rawP - offsetOf c b5 oss) (2 ^ 32)).mul_right
    (50000 / 2 ^ oss.value)
  unfold pressureB7
  rw [difference]
  exact product

def quotientOf (divisor dividend : Int) : Int :=
  if dividend < 2 ^ 31 then signed (dividend * 2 / divisor)
  else signed (unsigned (dividend / divisor * 2))

theorem firstPressure_some (divisor dividend p : Int) (nonneg : 0 ≤ dividend) :
    firstPressure divisor dividend = some p ↔
      divisor ≠ 0 ∧ quotientOf divisor dividend = p := by
  unfold firstPressure quotientOf
  have threshold : (0x80000000 : Int) = 2 ^ 31 := by norm_num
  rw [threshold]
  by_cases small : dividend < 2 ^ 31
  · have kept : unsigned (dividend * 2) = dividend * 2 := by
      apply Int.emod_eq_of_lt <;> omega
    rw [if_pos small, if_pos small, divUnsigned_bind_some, kept]
    exact and_congr_right fun _ => Option.some_inj
  · rw [if_neg small, if_neg small, divUnsigned_bind_some]
    exact and_congr_right fun _ => Option.some_inj

theorem signed_of_small {value : Int} (nonneg : 0 ≤ value) (small : value < 2 ^ 31) :
    signed value = value :=
  Int.bmod_eq_of_le (by omega) (by omega)

theorem signed_of_large {value : Int} (large : 2 ^ 31 ≤ value) (word : value < 2 ^ 32) :
    signed value = value - 2 ^ 32 := by
  unfold signed
  have range := Int.bmod_def value (2 ^ 32)
  omega

theorem signed_moderate_iff {value : Int} (nonneg : 0 ≤ value) (word : value < 2 ^ 32) :
    (-215040 ≤ signed value ∧ signed value ≤ 215295) ↔
      value ≤ 215295 ∨ 2 ^ 32 - 215040 ≤ value := by
  by_cases small : value < 2 ^ 31
  · rw [signed_of_small nonneg small]
    omega
  · rw [signed_of_large (not_lt.mp small) word]
    omega

theorem quotientOf_moderate_iff (divisor dividend : Int) (positive : 0 < divisor)
    (nonneg : 0 ≤ dividend) (word : dividend < 2 ^ 32) :
    (-215040 ≤ quotientOf divisor dividend ∧ quotientOf divisor dividend ≤ 215295) ↔
      Moderate divisor dividend := by
  unfold quotientOf Moderate
  by_cases small : dividend < 2 ^ 31
  · have below := Int.ediv_lt_iff_lt_mul (a := dividend * 2) (b := 215296) positive
    have above := Int.le_ediv_iff_mul_le (a := 2 ^ 32 - 215040) (b := dividend * 2) positive
    have bound : dividend * 2 / divisor < 2 ^ 32 :=
      lt_of_le_of_lt (Int.ediv_le_self _ (by omega)) (by omega)
    have nonneg' : 0 ≤ dividend * 2 / divisor := Int.ediv_nonneg (by omega) positive.le
    rw [if_pos small, signed_moderate_iff nonneg' bound]
    omega
  · rw [if_neg small]
    by_cases one : divisor = 1
    · subst one
      -- Only here does the doubled quotient leave the word.
      have wrapped : unsigned (dividend / 1 * 2) = dividend * 2 - 2 ^ 32 := by
        unfold unsigned
        rw [Int.ediv_one]
        omega
      rw [wrapped, signed_moderate_iff (by omega) (by omega)]
      omega
    · have below := Int.ediv_lt_iff_lt_mul (a := dividend) (b := 107648) positive
      have above := Int.le_ediv_iff_mul_le (a := 2 ^ 31 - 107520) (b := dividend) positive
      have half := Int.ediv_lt_iff_lt_mul (a := dividend) (b := 2 ^ 31) positive
      have nonneg' : 0 ≤ dividend / divisor := Int.ediv_nonneg nonneg positive.le
      have kept : unsigned (dividend / divisor * 2) = dividend / divisor * 2 := by
        unfold unsigned
        omega
      rw [kept, signed_moderate_iff (by omega) (by omega)]
      omega

theorem secondOrder_defined_iff (p : Int) :
    (∃ result, secondOrder p = some result) ↔ -215040 ≤ p ∧ p ≤ 215295 := by
  simp only [secondOrder, mul_bind_some, add_bind_some, add_some]
  constructor
  · rintro ⟨_, _, ⟨_, bent⟩, _⟩
    have root : shiftRight p 8 * shiftRight p 8 < 841 * 841 := by omega
    have low : -841 < shiftRight p 8 := by nlinarith only [root]
    have high : shiftRight p 8 < 841 := by nlinarith only [root]
    unfold shiftRight at low high
    omega
  · intro range
    have high : Within 840 (shiftRight p 8) := by
      unfold shiftRight Within
      omega
    have square := within_mul high high
    have bent := within_mul square (constant_within 3038 (by norm_num))
    have x1 : Within (2 ^ 15) (shiftRight (shiftRight p 8 * shiftRight p 8 * 3038) 16) :=
      within_shiftRight 16 (within_mono bent (by norm_num))
    have first : Within 215295 p := by
      unfold Within
      omega
    have sloped := within_mul (show Within 7357 (-7357) by unfold Within; omega) first
    have x2 : Within 24170 (shiftRight (-7357 * p) 16) :=
      within_shiftRight 16 (within_mono sloped (by norm_num))
    have sum := within_add x1 x2
    have rounded := within_add sum (constant_within 3791 (by norm_num))
    have x3 : Within (2 ^ 15 + 24170 + 3791) (shiftRight (shiftRight
        (shiftRight p 8 * shiftRight p 8 * 3038) 16 + shiftRight (-7357 * p) 16 + 3791) 4) :=
      within_shiftRight 4 (within_mono rounded (by norm_num))
    exact ⟨_, within_fits32 square (by norm_num), within_fits32 bent (by norm_num),
      within_fits32 sloped (by norm_num), within_fits32 sum (by norm_num),
      within_fits32 rounded (by norm_num), within_fits32 (within_add first x3) (by norm_num), rfl⟩

/-! ## The whole -/

theorem divisorOf_pos_iff (c : Bmp180Calib) (b5 : Int) :
    divisorOf c b5 ≠ 0 ↔ 2 ^ 15 ≤ c.ac4.toNat * scaleOf c b5 % 2 ^ 32 := by
  have nonneg : 0 ≤ c.ac4.toNat * scaleOf c b5 % 2 ^ 32 := Int.emod_nonneg _ (by norm_num)
  unfold divisorOf
  omega

/-- For every raw temperature with a `B5` the pressure has a value exactly when the
operands are regular. -/
theorem compensatePressure_defined_iff (c : Bmp180Calib) (raw : UInt16) (b5 : Int)
    (defined : computeB5 c raw.toNat = some b5) (oss : Oss) (rawP : Int) :
    (∃ pressure, compensatePressure c raw.toNat rawP oss = some pressure) ↔
      Regular c b5 oss rawP := by
  have started (outcome : Int) : computeB5 c raw.toNat = some outcome ↔ True ∧ b5 = outcome := by
    rw [defined, Option.some.injEq, true_and]
  have range : Fits32 (b5 - 4000) := by
    obtain ⟨dividable, same⟩ := (computeB5_some c raw b5).mp defined
    have bound := exactB5_within c raw.toNat dividable.1
    rw [same] at bound
    unfold Within at bound
    unfold Fits32
    omega
  have word : dividendOf c b5 oss rawP < 2 ^ 32 := Int.emod_lt_of_pos _ (by norm_num)
  have nonneg : 0 ≤ dividendOf c b5 oss rawP := Int.emod_nonneg _ (by norm_num)
  have product : 0 ≤ c.ac4.toNat * scaleOf c b5 % 2 ^ 32 := Int.emod_nonneg _ (by norm_num)
  have divisor : 0 ≤ divisorOf c b5 := Int.ediv_nonneg product (by norm_num)
  -- Both ways stage by stage: each stage has a value exactly when its operands allow it.
  unfold compensatePressure
  constructor
  · rintro ⟨pressure, run⟩
    rw [bind_some_iff _ _ started, sub_bind_some,
      bind_some_iff _ _ (pressureB3_some c b5 oss)] at run
    obtain ⟨-, -, ⟨near, b2⟩, run⟩ := run
    rw [bind_some_iff _ _ (pressureB4_some c b5 near), pressureB7_eq,
      bind_some_iff _ _ (fun p => firstPressure_some _ _ p nonneg)] at run
    obtain ⟨b1, nonzero, run⟩ := run
    have moderate := (secondOrder_defined_iff _).mp ⟨pressure, run⟩
    have positive : 0 < divisorOf c b5 := by omega
    exact ⟨near, b2, b1, (divisorOf_pos_iff c b5).mp nonzero,
      (quotientOf_moderate_iff _ _ positive nonneg word).mp moderate⟩
  · intro regular
    have nonzero := (divisorOf_pos_iff c b5).mpr regular.divisor
    have positive : 0 < divisorOf c b5 := by omega
    have moderate := (quotientOf_moderate_iff _ _ positive nonneg word).mpr regular.quotient
    obtain ⟨pressure, last⟩ := (secondOrder_defined_iff _).mpr moderate
    refine ⟨pressure, ?_⟩
    rw [bind_some_iff _ _ started, sub_bind_some, bind_some_iff _ _ (pressureB3_some c b5 oss)]
    refine ⟨trivial, range, ⟨regular.near, regular.b2⟩, ?_⟩
    rw [bind_some_iff _ _ (pressureB4_some c b5 regular.near), pressureB7_eq,
      bind_some_iff _ _ (fun p => firstPressure_some _ _ p nonneg)]
    exact ⟨regular.b1, nonzero, last⟩

/-- The datasheet's example: 69964 Pa. -/
theorem compensatePressure_defined_iff_example :
    ∃ pressure, compensatePressure exampleCalib (27898 : UInt16).toNat 23843 .ultraLowPower =
      some pressure :=
  (compensatePressure_defined_iff exampleCalib 27898 2400 (by decide) .ultraLowPower 23843).mpr
    ⟨by decide, by decide, by decide, by decide, .inl (by decide)⟩

example : compensatePressure exampleCalib (27898 : UInt16).toNat 23843 .ultraLowPower =
    some 69964 := by decide

/-- One count above the raw temperature without a `B5`, the square overflows. -/
theorem compensatePressure_overflow : ¬ ∀ (bus : Bus) (c : Bmp180Calib) (raw : UInt16) (b5 : Int)
    (oss : Oss) (bytes : PressureBytes) (rawP : Int), loadCalibration bus = .ok c →
    computeB5 c raw.toNat = some b5 → readRawPressure oss (some bytes) = some rawP →
    ∃ pressure, compensatePressure c raw.toNat rawP oss = some pressure := by
  intro always
  obtain ⟨pressure, run⟩ := always exampleBus exampleCalib 20286 (-17842995) .ultraLowPower
    ⟨0x5D, 0x23, 0⟩ 23843 example_loaded (by decide) (by decide)
  have undefined : compensatePressure exampleCalib (20286 : UInt16).toNat 23843 .ultraLowPower =
      none := by decide
  rw [undefined] at run
  cases run

-- A zero divisor from words that the load admits.
example : compensatePressure { exampleCalib with ac3 := 14383, ac4 := 1 } (27898 : UInt16).toNat
    23843 .ultraLowPower = none := by decide

end SensorNode.Bmp180Pressure
