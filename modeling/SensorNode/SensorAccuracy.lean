import SensorNode.BinaryArithmetic
import SensorNode.Htu21dReading
import SensorNode.ReadingTransit

/-!
The conversions of htu21d.c in binary32, and what is left of a measurement when it stands in the
store: the humidity is computed exactly, the temperature is off by a rounding in each operation,
and the two decimals of either are the nearest.
-/

namespace SensorNode.SensorAccuracy

open LineStream DecimalText ReadingStore WireFormat DecimalTransit ReadingTransit
open BinaryRounding BinaryValue BinaryArithmetic
open Htu21dReading (Delivery Valid Errno rawWord htu21dCrc8 formula)
open Float.Model (UnpackedFloat)

/-! ## htu21d_read_measurement in binary32 -/

/-- The two formulas and the limits, operation by operation. -/
def converted (isTemp : Bool) (raw : UInt16) : Float32 :=
  if isTemp then -46.85 + (175.72 * raw.toFloat32 / 65536.0)
  else
    let out : Float32 := -6.0 + (125.0 * raw.toFloat32 / 65536.0)
    let out := if out < 0.0 then 0.0 else out
    if 100.0 < out then 100.0 else out

structure Measurement where
  ret : Int
  out : Float32
  errno : Option Errno

def attempts (reads : Nat → Delivery) (isTemp : Bool) (out : Float32) : Nat → Nat → Measurement
  | _, 0 => ⟨-1, out, some .eio⟩
  | attempt, left + 1 =>
      match reads attempt with
      | some [high, low, check] =>
          if htu21dCrc8 [high, low] ≠ check then attempts reads isTemp out (attempt + 1) left
          else
            let raw := rawWord high low
            if raw = 0xFFFC ∨ raw = 0x0000 then attempts reads isTemp out (attempt + 1) left
            else ⟨0, converted isTemp raw, none⟩
      | _ => attempts reads isTemp out (attempt + 1) left

def htu21dReadMeasurement (written : Int) (reads : Nat → Delivery) (out : Float32)
    (isTemp : Bool) : Measurement :=
  if written ≠ 1 then ⟨-1, out, none⟩ else attempts reads isTemp out 0 10

/-- From an attempt on: both convert the first valid word, or both fail alike. -/
inductive Agree (reads : Nat → Delivery) (isTemp : Bool) (out : Float32) (exact : ℚ)
    (attempt left : Nat) : Measurement → Htu21dReading.Measurement → Prop where
  | read (i : Nat) (raw : UInt16) (start : attempt ≤ i) (upTo : i < attempt + left)
      (valid : Valid (reads i) raw)
      (earlier : ∀ j, attempt ≤ j → j < i → ∀ other, ¬ Valid (reads j) other) :
      Agree reads isTemp out exact attempt left ⟨0, converted isTemp raw, none⟩
        ⟨0, formula isTemp raw, none⟩
  | failed (none' : ∀ i, attempt ≤ i → i < attempt + left → ∀ raw, ¬ Valid (reads i) raw) :
      Agree reads isTemp out exact attempt left ⟨-1, out, some .eio⟩ ⟨-1, exact, some .eio⟩

section
variable (reads : Nat → Delivery) (isTemp : Bool) (out : Float32) (exact : ℚ)

theorem attempts_valid (attempt left : Nat) (raw : UInt16) (valid : Valid (reads attempt) raw) :
    attempts reads isTemp out attempt (left + 1) = ⟨0, converted isTemp raw, none⟩ := by
  obtain ⟨high, low, check, read, matched, rfl, notLow, notHigh⟩ := valid
  simp only [attempts, read, matched, ne_eq, not_true, if_false]
  rw [if_neg (not_or.mpr ⟨notHigh, notLow⟩)]

theorem attempts_invalid (attempt left : Nat) (invalid : ∀ raw, ¬ Valid (reads attempt) raw) :
    attempts reads isTemp out attempt (left + 1) =
      attempts reads isTemp out (attempt + 1) left := by
  rw [attempts]
  split
  · next high low check read =>
      by_cases wrong : htu21dCrc8 [high, low] ≠ check
      · rw [if_pos wrong]
      · rw [if_neg wrong]
        refine if_pos ?_
        by_contra extremes
        obtain ⟨notHigh, notLow⟩ := not_or.mp extremes
        exact invalid _ ⟨high, low, check, read, not_not.mp wrong, rfl, notLow, notHigh⟩
  · rfl

theorem attempts_agree (left attempt : Nat) : Agree reads isTemp out exact attempt left
    (attempts reads isTemp out attempt left)
    (Htu21dReading.attempts reads isTemp exact attempt left) := by
  induction left generalizing attempt with
  | zero => exact .failed fun i start upTo => absurd upTo (by omega)
  | succ left ih =>
      by_cases now : ∃ raw, Valid (reads attempt) raw
      · obtain ⟨raw, valid⟩ := now
        rw [attempts_valid reads isTemp out attempt left raw valid,
          Htu21dReading.attempts_valid reads isTemp exact attempt left raw valid]
        exact .read attempt raw le_rfl (by omega) valid fun j start before =>
          absurd before (by omega)
      · have rejected := not_exists.mp now
        have first (i : Nat) (start : attempt ≤ i) (later : attempt + 1 ≤ i → ∀ raw,
            ¬ Valid (reads i) raw) : ∀ raw, ¬ Valid (reads i) raw := by
          rcases Nat.eq_or_lt_of_le start with rfl | after
          · exact rejected
          · exact later after
        rw [attempts_invalid reads isTemp out attempt left rejected,
          Htu21dReading.attempts_invalid reads isTemp exact attempt left rejected]
        have agreed := ih (attempt + 1)
        generalize attempts reads isTemp out (attempt + 1) left = result,
          Htu21dReading.attempts reads isTemp exact (attempt + 1) left = ideal at agreed
        cases agreed with
        | read i raw start upTo valid earlier =>
            exact .read i raw (by omega) (by omega) valid fun j start before =>
              first j start fun after => earlier j after before
        | failed none' =>
            exact .failed fun i start upTo => first i start fun after =>
              none' i after (by omega)

end

/-! ## The formulas -/

theorem number_of_unpacked (value : Float32) (sign : UnpackedFloat.Sign) (mantissa : ℕ)
    (exponent : ℤ) (positive : 0 < mantissa)
    (unpacked : value.toModel.unpack = .finite sign mantissa exponent positive) :
    exactValue value = some (signed sign (mantissa * 2 ^ exponent)) := by
  rw [exactValue, unpacked, ← apply_signed]
  rfl

theorem offset_number : exactValue (-46.85) = some (-12281446 / 2 ^ 18) := by
  rw [number_of_unpacked _ .negative 12281446 (-18) (by decide) rfl]
  norm_num [signed]

theorem slope_number : exactValue 175.72 = some (11515986 / 2 ^ 16) := by
  rw [number_of_unpacked _ .positive 11515986 (-16) (by decide) rfl]
  norm_num [signed]

theorem scale_number : exactValue 65536.0 = some 65536 := by
  rw [number_of_unpacked _ .positive 8388608 (-7) (by decide) rfl]
  norm_num [signed]

theorem base_number : exactValue (-6.0) = some (-6) := by
  rw [number_of_unpacked _ .negative 12582912 (-21) (by decide) rfl]
  norm_num [signed]

theorem span_number : exactValue 125.0 = some 125 := by
  rw [number_of_unpacked _ .positive 16384000 (-17) (by decide) rfl]
  norm_num [signed]

theorem hundred_number : exactValue 100.0 = some 100 := by
  rw [number_of_unpacked _ .positive 13107200 (-17) (by decide) rfl]
  norm_num [signed]

theorem zero_number : exactValue 0.0 = some 0 := rfl

theorem under_limit (number : ℚ) (bound : number < 2 ^ 64) : number < 2 ^ (127 : ℤ) := by
  have power : (2 : ℚ) ^ (64 : ℤ) ≤ 2 ^ (127 : ℤ) := zpow_le_zpow_right₀ one_le_two (by norm_num)
  exact bound.trans_le ((by norm_num : (2 : ℚ) ^ 64 ≤ 2 ^ (64 : ℤ)).trans power)

theorem over_limit (number : ℚ) (bound : (1 : ℚ) / 2 ^ 64 ≤ number) :
    (2 : ℚ) ^ (-125 : ℤ) ≤ number := by
  have power : (2 : ℚ) ^ (-125 : ℤ) ≤ 2 ^ (-64 : ℤ) :=
    zpow_le_zpow_right₀ one_le_two (by norm_num)
  exact power.trans ((by norm_num : (2 : ℚ) ^ (-64 : ℤ) ≤ 1 / 2 ^ 64).trans bound)

section
variable (raw : UInt16) (nonzero : raw ≠ 0)
include nonzero

theorem raw_bounds : (1 : ℚ) ≤ raw.toNat ∧ (raw.toNat : ℚ) < 65536 := by
  have small : raw.toNat < 65536 := raw.toNat_lt
  have present : 1 ≤ raw.toNat := by
    rcases Nat.eq_zero_or_pos raw.toNat with zero | positive
    · exact absurd (UInt16.toNat_inj.mp zero) nonzero
    · exact positive
  exact ⟨by exact_mod_cast present, by exact_mod_cast small⟩

/-- 125 times 16 bits, and the quotient by a power of two, need no rounding. -/
theorem humidity_number :
    exactValue (-6.0 + (125.0 * raw.toFloat32 / 65536.0)) =
      some (-6 + 125 * ((raw.toNat : ℚ) / 65536)) := by
  obtain ⟨low, high⟩ := raw_bounds raw nonzero
  have small : raw.toNat < 65536 := raw.toNat_lt
  have positive : (0 : ℚ) < raw.toNat := by linarith
  -- An integer of 23 bits.
  have product : exactValue (125.0 * raw.toFloat32) = some ((125 : ℚ) * raw.toNat) := by
    have closest := mul_closest _ _ _ _ span_number (ofUInt16_exact raw) (by
      apply under_limit
      rw [abs_of_pos (by positivity)]
      linarith)
    refine closest_exact _ _ closest ((125 : ℤ) * raw.toNat) 0 ?_ (by omega) (by norm_num)
    push_cast
    ring
  have quotient : exactValue (125.0 * raw.toFloat32 / 65536.0) =
      some ((125 : ℚ) * raw.toNat / 65536) := by
    have closest := div_closest _ _ _ _ product scale_number (by norm_num)
      (fun _ => by
        apply over_limit
        rw [abs_of_pos (by positivity)]
        linarith)
      (by
        apply under_limit
        rw [abs_of_pos (by positivity)]
        linarith)
    refine closest_exact _ _ closest ((125 : ℤ) * raw.toNat) (-16) ?_ (by omega) (by norm_num)
    push_cast
    norm_num
    ring
  have closest := add_closest _ _ _ _ base_number quotient (by
    apply under_limit
    rw [abs_lt]
    constructor <;> linarith)
  have sum := closest_exact _ _ closest ((125 : ℤ) * raw.toNat - 393216) (-16)
    (by
      push_cast
      norm_num
      ring) (by omega) (by norm_num)
  rw [sum]
  congr 1
  ring

theorem humidity_exact : exactValue (converted false raw) = some (formula false raw) := by
  have number := humidity_number raw nonzero
  simp only [converted, formula, Bool.false_eq_true, if_false]
  generalize -6.0 + (125.0 * raw.toFloat32 / 65536.0) = out at number
  generalize (-6 : ℚ) + 125 * (raw.toNat / 65536) = value at number
  have low := lt_number out 0.0 _ _ number zero_number
  by_cases under : out < 0.0
  -- A negative value is held to 0, which is not above 100.
  · have negative := low.mp under
    have zero : ¬ (100.0 : Float32) < 0.0 := by
      rw [lt_number _ _ _ _ hundred_number zero_number]
      norm_num
    rw [if_pos under, if_neg zero, zero_number, max_eq_left ((min_le_right _ _).trans negative.le)]
  · have positive : 0 ≤ value := not_lt.mp fun less => under (low.mpr less)
    rw [if_neg under]
    have high := lt_number 100.0 out _ _ hundred_number number
    by_cases above : (100.0 : Float32) < out
    · rw [if_pos above, hundred_number, min_eq_left (high.mp above).le,
        max_eq_right (by norm_num)]
    · have most : value ≤ 100 := not_lt.mp fun less => above (high.mpr less)
      rw [if_neg above, number, min_eq_right most, max_eq_right positive]

/-- A rounding in each of the three operations and in two constants. -/
theorem temperature_number : ∃ number, exactValue (converted true raw) = some number ∧
    |number - formula true raw| ≤ 1 / 2 ^ 15 := by
  obtain ⟨low, high⟩ := raw_bounds raw nonzero
  obtain ⟨product, scaled, near⟩ := closest_error _ _
    (mul_closest _ _ _ _ slope_number (ofUInt16_exact raw) (by
      apply under_limit
      rw [abs_of_pos (by positivity)]
      linarith)) 23 (by norm_num) (by
      rw [abs_of_pos (by positivity)]
      norm_num
      linarith)
  norm_num [abs_le] at near
  obtain ⟨quotient, divided, near'⟩ := closest_error _ _
    (div_closest _ _ _ _ scaled scale_number (by norm_num)
      (fun _ => by
        apply over_limit
        rw [abs_of_pos (by linarith)]
        linarith)
      (by
        apply under_limit
        rw [abs_of_pos (by linarith)]
        linarith)) 7 (by norm_num) (by
      rw [abs_of_pos (by linarith)]
      norm_num
      linarith)
  norm_num [abs_le] at near'
  obtain ⟨sum, added, near''⟩ := closest_error _ _
    (add_closest _ _ _ _ offset_number divided (by
      apply under_limit
      rw [abs_lt]
      constructor <;> linarith)) 7 (by norm_num) (by
      rw [abs_lt]
      norm_num
      constructor <;> linarith)
  norm_num [abs_le] at near''
  refine ⟨sum, added, ?_⟩
  simp only [formula, if_true]
  rw [abs_le]
  norm_num
  constructor <;> linarith

end

/-! ## From a driver to the store -/

theorem apply_close (sign : UnpackedFloat.Sign) (magnitude : ℚ) (total : ℕ)
    (near : |magnitude * 100 - total| ≤ 1 / 2) :
    |((sign.apply total : ℤ) : ℚ) / 100 - signed sign magnitude| ≤ 1 / 200 := by
  rw [abs_le] at near ⊢
  cases sign with
  | positive =>
      simp only [UnpackedFloat.Sign.apply, signed, Int.cast_natCast]
      constructor <;> linarith
  | negative =>
      simp only [UnpackedFloat.Sign.apply, signed, Int.cast_neg, Int.cast_natCast]
      constructor <;> linarith

theorem hundredths_close (value : Float32) (number : ℚ)
    (denotes : exactValue value = some number) :
    ∃ total, floatHundredths value = some total ∧ |(total : ℚ) / 100 - number| ≤ 1 / 200 := by
  by_cases nonzero : number = 0
  · obtain ⟨sign, unpacked⟩ := exactValue_zero value (nonzero ▸ denotes)
    refine ⟨0, by rw [floatHundredths, unpacked], ?_⟩
    rw [nonzero, Int.cast_zero, zero_div, sub_zero, abs_zero]
    norm_num
  · obtain ⟨sign, mantissa, exponent, positive, unpacked, rfl, -⟩ :=
      exactValue_finite value number nonzero denotes
    refine ⟨_, by rw [floatHundredths, unpacked], ?_⟩
    exact apply_close sign _ _ (magnitude_nearest mantissa exponent).1

/-- What a client sends of a value stands in the store as this many hundredths. -/
def Stored (name : Bytes) (value : Float32) (total : ℤ) : Prop :=
  ∃ message stored, sendValue name (printFloat2 value) = some message ∧
    parseDatagram message = some (name, stored) ∧ floatHundredths stored = some total

theorem stored_close (name : Bytes) (named : Named name) (short : name.length ≤ 60)
    (value : Float32) (number : ℚ) (denotes : exactValue value = some number) :
    ∃ total, Stored name value total ∧ |(total : ℚ) / 100 - number| ≤ 1 / 200 := by
  obtain ⟨total, hundredths, close⟩ := hundredths_close value number denotes
  have finite : value.isFinite = true := by
    rw [← exactValue_isSome, denotes]
    rfl
  obtain ⟨stored, parsed, printed⟩ := float_transits name named value finite
  obtain ⟨sign, magnitude, text, same⟩ := printFloat2_written value finite
  obtain rfl := Option.some.inj (hundredths.symm.trans same)
  have digits := printFloat2_length value
  refine ⟨_, ⟨_, stored, if_pos ?_, parsed, ?_⟩, close⟩
  · simp only [List.length_append, List.length_cons]
    omega
  · have kept : stored.isFinite = true := parseDatagram_finite _ (name, stored) parsed
    exact printed_hundredths stored sign magnitude kept (printed.trans text)

theorem stored_exact (name : Bytes) (named : Named name) (short : name.length ≤ 60)
    (value : Float32) (number : ℚ) (denotes : exactValue value = some number) (total : ℤ)
    (near : |number - total / 100| < 1 / 200) : Stored name value total := by
  obtain ⟨other, stored, close⟩ := stored_close name named short value number denotes
  have same : other = total := by
    rw [abs_le] at close
    rw [abs_lt] at near
    have above : (other : ℚ) < total + 1 := by linarith
    have below : (total : ℚ) < other + 1 := by linarith
    have above' : other < total + 1 := by exact_mod_cast above
    have below' : total < other + 1 := by exact_mod_cast below
    omega
  exact same ▸ stored

/-! ## htu21d -/

def sensorName (isTemp : Bool) : Bytes := if isTemp then ascii "htu21d_temp" else ascii "htu21d_rh"

theorem sensorName_named (isTemp : Bool) : Named (sensorName isTemp) ∧
    (sensorName isTemp).length ≤ 60 := by
  cases isTemp <;> decide

theorem converted_stored (isTemp : Bool) (raw : UInt16) (nonzero : raw ≠ 0) :
    ∃ total, Stored (sensorName isTemp) (converted isTemp raw) total ∧
      |(total : ℚ) / 100 - formula isTemp raw| ≤ 1 / 200 + if isTemp then 1 / 2 ^ 15 else 0 := by
  obtain ⟨named, short⟩ := sensorName_named isTemp
  obtain ⟨number, denotes, error⟩ : ∃ number, exactValue (converted isTemp raw) = some number ∧
      |number - formula isTemp raw| ≤ if isTemp then 1 / 2 ^ 15 else 0 := by
    cases isTemp with
    | false => exact ⟨_, humidity_exact raw nonzero, by simp⟩
    | true => exact temperature_number raw nonzero
  obtain ⟨total, stored, close⟩ := stored_close _ named short _ number denotes
  exact ⟨total, stored, (abs_sub_le _ _ _).trans (add_le_add close error)⟩

/-- The loop over floats takes the word that the loop over numbers takes. What it makes of the word
is in the store to the nearest hundredth: the humidity is the formula's number, the temperature is
but for an error of a 32768th. -/
theorem htu21d_stored (written : Int) (reads : Nat → Delivery) (out : Float32) (exact : ℚ)
    (isTemp : Bool) :
    let result := htu21dReadMeasurement written reads out isTemp
    let ideal := Htu21dReading.htu21dReadMeasurement written reads exact isTemp
    result.ret = ideal.ret ∧ result.errno = ideal.errno ∧
    (result.ret = 0 → (∃ i < 10, ∃ raw, Valid (reads i) raw ∧
        (∀ j < i, ∀ other, ¬ Valid (reads j) other) ∧ ideal.out = formula isTemp raw) ∧
      ∃ total, Stored (sensorName isTemp) result.out total ∧
        |(total : ℚ) / 100 - ideal.out| ≤ 1 / 200 + (if isTemp then 1 / 2 ^ 15 else 0) ∧
        (isTemp = false →
          exactValue result.out = some ideal.out ∧ 0 ≤ total ∧ total ≤ 10000)) ∧
    (result.ret ≠ 0 → result.ret = -1 ∧ result.out = out ∧ ideal.out = exact) := by
  intro result ideal
  by_cases sent : written = 1
  · have run : result = attempts reads isTemp out 0 10 := if_neg (not_not.mpr sent)
    have run' : ideal = Htu21dReading.attempts reads isTemp exact 0 10 :=
      if_neg (not_not.mpr sent)
    rw [run, run']
    -- Both loops reject and take the same reads.
    have agreed := attempts_agree reads isTemp out exact 10 0
    generalize attempts reads isTemp out 0 10 = floats,
      Htu21dReading.attempts reads isTemp exact 0 10 = numbers at agreed
    cases agreed with
    | read i raw start upTo valid earlier =>
        have nonzero : raw ≠ 0 := by
          obtain ⟨-, -, -, -, -, -, notLow, -⟩ := valid
          exact notLow
        obtain ⟨total, stored, close⟩ := converted_stored isTemp raw nonzero
        refine ⟨rfl, rfl, fun _ => ⟨⟨i, by omega, raw, valid, fun j => earlier j (Nat.zero_le j),
          rfl⟩, total, stored, close, fun humidity => ?_⟩, fun failed => absurd rfl failed⟩
        subst humidity
        obtain ⟨least, most⟩ := Htu21dReading.humidity_bounds raw
        simp only [Bool.false_eq_true, if_false, add_zero, abs_le] at close
        have low : (-1 : ℚ) < total := by linarith
        have high : (total : ℚ) < 10001 := by linarith
        have low' : -1 < total := by exact_mod_cast low
        have high' : total < 10001 := by exact_mod_cast high
        exact ⟨humidity_exact raw nonzero, by omega, by omega⟩
    | failed none' =>
        exact ⟨rfl, rfl, fun done => by simp at done, fun _ => ⟨rfl, rfl, rfl⟩⟩
  · have run : result = ⟨-1, out, none⟩ := if_pos sent
    have run' : ideal = ⟨-1, exact, none⟩ := if_pos sent
    rw [run, run']
    exact ⟨rfl, rfl, fun done => by simp at done, fun _ => ⟨rfl, rfl, rfl⟩⟩

end SensorNode.SensorAccuracy
