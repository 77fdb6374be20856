import SensorNode.CheckedWord

/-!
The BMP180 driver up to the temperature: the calibration words, checked one by one
when they are loaded, the raw temperature, and `compute_b5` in the signed 32-bit
arithmetic of the code, next to the same formula over unbounded integers.
-/

namespace SensorNode.Bmp180Temperature

open SignedWord CheckedWord

/-! ## The registers -/

/-- The two bytes at a register, none when the transfer fails. -/
abbrev Bus := UInt8 → Option (UInt8 × UInt8)

def i2cReadWordBe (bus : Bus) (reg : UInt8) : Option UInt16 :=
  (bus reg).map fun bytes => (bytes.1.toUInt16 <<< (8 : UInt16)) ||| bytes.2.toUInt16

structure Bmp180Calib where
  ac1 : Int16
  ac2 : Int16
  ac3 : Int16
  ac4 : UInt16
  ac5 : UInt16
  ac6 : UInt16
  b1 : Int16
  b2 : Int16
  mb : Int16
  mc : Int16
  md : Int16
  deriving DecidableEq

inductive LoadError where
  | transfer
  | eio
  deriving DecidableEq

def calibrationWord (bus : Bus) (reg : UInt8) : Except LoadError UInt16 :=
  match i2cReadWordBe bus reg with
  | none => .error .transfer
  | some raw => if raw = 0x0000 ∨ raw = 0xFFFF then .error .eio else .ok raw

def loadCalibration (bus : Bus) : Except LoadError Bmp180Calib := do
  let ac1 ← calibrationWord bus 0xAA
  let ac2 ← calibrationWord bus 0xAC
  let ac3 ← calibrationWord bus 0xAE
  let ac4 ← calibrationWord bus 0xB0
  let ac5 ← calibrationWord bus 0xB2
  let ac6 ← calibrationWord bus 0xB4
  let b1 ← calibrationWord bus 0xB6
  let b2 ← calibrationWord bus 0xB8
  let mb ← calibrationWord bus 0xBA
  let mc ← calibrationWord bus 0xBC
  let md ← calibrationWord bus 0xBE
  return ⟨ac1.toInt16, ac2.toInt16, ac3.toInt16, ac4, ac5, ac6, b1.toInt16, b2.toInt16,
    mb.toInt16, mc.toInt16, md.toInt16⟩

/-- `written` tells whether the command reached the sensor. -/
def readRawTemperature (written : Bool) (bus : Bus) : Option Int :=
  if written then (i2cReadWordBe bus 0xF6).map fun word => (word.toNat : Int) else none

/-! ## The code -/

def computeB5 (c : Bmp180Calib) (rawT : Int) : Option Int := do
  let difference ← sub rawT c.ac6.toNat
  let product ← mul difference c.ac5.toNat
  let x1 := shiftRight product 15
  let scaled ← shiftLeft c.mc.toInt 11
  let divisor ← add x1 c.md.toInt
  let x2 ← div scaled divisor
  add x1 x2

/-- In tenths of a degree; the code returns them as a float divided by ten. -/
def compensateTemperature (c : Bmp180Calib) (rawT : Int) : Option Int := do
  let b5 ← computeB5 c rawT
  let t ← add b5 8
  return shiftRight t 4

/-! ## The formula over unbounded integers -/

def exactB5 (c : Bmp180Calib) (rawT : Int) : Int :=
  let x1 := (rawT - c.ac6.toNat) * c.ac5.toNat / 2 ^ 15
  x1 + (c.mc.toInt * 2 ^ 11).tdiv (x1 + c.md.toInt)

def exactTemperature (c : Bmp180Calib) (rawT : Int) : Int := (exactB5 c rawT + 8) / 2 ^ 4

/-! ## What fits -/

theorem signed16_within (word : Int16) : Within (2 ^ 15) word.toInt := by
  have low := word.le_toInt
  have high := word.toInt_lt
  unfold Within
  omega

theorem unsigned16_within (word : UInt16) : Within 65535 word.toNat := by
  have small := word.toNat_lt
  unfold Within
  omega

/-- The product fits its type, and its high part is not the negative of `MD`. -/
def Dividable (c : Bmp180Calib) (rawT : Int) : Prop :=
  Fits32 ((rawT - c.ac6.toNat) * c.ac5.toNat) ∧
    (rawT - c.ac6.toNat) * c.ac5.toNat / 2 ^ 15 ≠ -c.md.toInt

section
variable (c : Bmp180Calib) (rawT : Int)

theorem high_within (fits : Fits32 ((rawT - c.ac6.toNat) * c.ac5.toNat)) :
    Within (2 ^ 16) ((rawT - c.ac6.toNat) * c.ac5.toNat / 2 ^ 15) := by
  apply within_div (by norm_num)
  unfold Fits32 at fits
  unfold Within
  omega

theorem scaled_within : Within (2 ^ 26) (c.mc.toInt * 2 ^ 11) := by
  have word := signed16_within c.mc
  unfold Within at *
  omega

theorem quotient_within (divisor : Int) :
    Within (2 ^ 26) ((c.mc.toInt * 2 ^ 11).tdiv divisor) :=
  within_tdiv divisor (scaled_within c)

theorem exactB5_within (fits : Fits32 ((rawT - c.ac6.toNat) * c.ac5.toNat)) :
    Within (2 ^ 16 + 2 ^ 26) (exactB5 c rawT) :=
  within_add (high_within c rawT fits) (quotient_within c _)

end

section
variable (c : Bmp180Calib) (raw : UInt16)

/-- No other operation can fail, and the result is that of the formula. -/
theorem computeB5_some (b5 : Int) :
    computeB5 c raw.toNat = some b5 ↔ Dividable c raw.toNat ∧ exactB5 c raw.toNat = b5 := by
  simp only [computeB5, sub_bind_some, mul_bind_some, shiftLeft_bind_some, add_bind_some,
    div_bind_some, add_some]
  constructor
  · rintro ⟨_, product, _, _, ⟨nonzero, _⟩, _, same⟩
    refine ⟨⟨product, ?_⟩, same⟩
    intro opposite
    apply nonzero
    unfold shiftRight
    omega
  · rintro ⟨⟨product, apart⟩, same⟩
    have difference := within_sub (unsigned16_within raw) (unsigned16_within c.ac6)
    have high := high_within c raw.toNat product
    have divisor := within_add high (signed16_within c.md)
    have quotient := quotient_within c
      (shiftRight ((raw.toNat - c.ac6.toNat) * c.ac5.toNat) 15 + c.md.toInt)
    have nonzero : shiftRight ((raw.toNat - c.ac6.toNat) * c.ac5.toNat) 15 + c.md.toInt ≠ 0 := by
      intro zero
      unfold shiftRight at zero
      omega
    exact ⟨within_fits32 difference (by norm_num), product,
      within_fits32 (scaled_within c) (by norm_num), within_fits32 divisor (by norm_num),
      ⟨nonzero, within_fits32 quotient (by norm_num)⟩,
      within_fits32 (within_add high quotient) (by norm_num), same⟩

theorem compensateTemperature_some (t : Int) :
    compensateTemperature c raw.toNat = some t ↔
      Dividable c raw.toNat ∧ exactTemperature c raw.toNat = t := by
  unfold compensateTemperature
  rw [bind_some_iff _ t (computeB5_some c raw)]
  constructor
  · rintro ⟨dividable, rest⟩
    rw [add_bind_some] at rest
    exact ⟨dividable, Option.some.inj rest.2⟩
  · rintro ⟨dividable, rfl⟩
    have eight : Within 8 8 := by unfold Within; omega
    have rounded := within_add (exactB5_within c raw.toNat dividable.1) eight
    refine ⟨dividable, ?_⟩
    rw [add_bind_some]
    exact ⟨within_fits32 rounded (by norm_num), rfl⟩

/-- `compute_b5` has a result, and the temperature is the formula's, exactly when the
product fits and the divisor is not zero. -/
theorem computeB5_defined_iff :
    ((∃ b5, computeB5 c raw.toNat = some b5) ∧
        compensateTemperature c raw.toNat = some (exactTemperature c raw.toNat)) ↔
      (-2 ^ 31 ≤ ((raw.toNat : Int) - c.ac6.toNat) * c.ac5.toNat ∧
        ((raw.toNat : Int) - c.ac6.toNat) * c.ac5.toNat < 2 ^ 31) ∧
      ((raw.toNat : Int) - c.ac6.toNat) * c.ac5.toNat / 2 ^ 15 ≠ -c.md.toInt := by
  constructor
  · rintro ⟨⟨b5, defined⟩, _⟩
    exact ((computeB5_some c raw b5).mp defined).1
  · intro dividable
    exact ⟨⟨_, (computeB5_some c raw _).mpr ⟨dividable, rfl⟩⟩,
      (compensateTemperature_some c raw _).mpr ⟨dividable, rfl⟩⟩

end

/-! ## Inputs the load accepts -/

/-- The calibration of the datasheet's example, as the registers hold it. -/
def exampleBus : Bus := fun reg =>
  match reg with
  | 0xAA => some (0x01, 0x98)
  | 0xAC => some (0xFF, 0xB8)
  | 0xAE => some (0xC7, 0xD1)
  | 0xB0 => some (0x7F, 0xE5)
  | 0xB2 => some (0x7F, 0xF5)
  | 0xB4 => some (0x5A, 0x71)
  | 0xB6 => some (0x18, 0x2E)
  | 0xB8 => some (0x00, 0x04)
  | 0xBA => some (0x80, 0x00)
  | 0xBC => some (0xDD, 0xF9)
  | 0xBE => some (0x0B, 0x34)
  | 0xF6 => some (0x4F, 0x3D)
  | _ => none

def exampleCalib : Bmp180Calib :=
  ⟨408, -72, -14383, 32741, 32757, 23153, 6190, 4, -32768, -8711, 2868⟩

theorem example_loaded : loadCalibration exampleBus = .ok exampleCalib := by decide

/-- With that calibration the raw temperature 20285 divides by zero. -/
theorem computeB5_zero_divisor : ¬ ∀ (bus : Bus) (c : Bmp180Calib) (raw : UInt16),
    loadCalibration bus = .ok c → readRawTemperature true bus = some (raw.toNat : Int) →
    (∃ b5, computeB5 c raw.toNat = some b5) ∧
      compensateTemperature c raw.toNat = some (exactTemperature c raw.toNat) := by
  intro always
  obtain ⟨⟨b5, defined⟩, _⟩ := always exampleBus exampleCalib 20285 example_loaded (by decide)
  have undefined : computeB5 exampleCalib (20285 : UInt16).toNat = none := by decide
  rw [undefined] at defined
  cases defined

-- The other kind: words as far apart as the load admits.
example : computeB5 { exampleCalib with ac5 := 65534, ac6 := 1 } 65535 = none := by decide

end SensorNode.Bmp180Temperature
