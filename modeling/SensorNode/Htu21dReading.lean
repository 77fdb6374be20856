import Mathlib.Data.Nat.Bitwise
import Mathlib.Data.Rat.Init
import Mathlib.Tactic.NormNum
import SensorNode.BitPolynomial

/-!
The HTU21D driver outside its debug build: the checksum the sensor appends, computed
bit by bit, and the measurement that tries up to ten reads. The checksum is the
remainder by `x^8 + x^5 + x^4 + 1`, so that no burst within eight bits leaves it right.
A failed read and the bytes of a delivered one are inputs, over the exact rationals.
-/

namespace SensorNode.Htu21dReading

open BitPolynomial Polynomial

/-! ## The checksum -/

def crcBit (crc : UInt8) : UInt8 :=
  if crc &&& 0x80 ≠ 0 then (crc <<< 1) ^^^ 0x31 else crc <<< 1

def htu21dCrc8 (data : List UInt8) : UInt8 :=
  data.foldl (fun crc byte => crcBit^[8] (crc ^^^ byte)) 0x00

def byteBits (byte : UInt8) : List Bool :=
  [7, 6, 5, 4, 3, 2, 1, 0].map byte.toNat.testBit

def stringBits (data : List UInt8) : List Bool := data.flatMap byteBits

/-- `0x31`: the coefficients below the leading one of `x^8 + x^5 + x^4 + 1`. -/
def taps : List Bool := [false, false, true, true, false, false, false, true]

theorem divisor_taps : divisor taps = X ^ 8 + X ^ 5 + X ^ 4 + 1 := by
  simp only [divisor, taps, ofBits_cons, ofBits_nil, coefficient_false, coefficient_true,
    List.length_cons, List.length_nil]
  ring

theorem byteBits_length (byte : UInt8) : (byteBits byte).length = 8 := rfl

theorem byteBits_xor (first second : UInt8) :
    byteBits (first ^^^ second) = List.zipWith xor (byteBits first) (byteBits second) := by
  simp only [byteBits, List.map_cons, List.map_nil, UInt8.toNat_xor, Nat.testBit_xor,
    List.zipWith_cons_cons, List.zipWith_nil_right]

theorem byteBits_shift (byte : UInt8) :
    byteBits (byte <<< 1) = (byteBits byte).tail ++ [false] := by
  have moved : (byte <<< 1).toNat = byte.toNat <<< 1 % 2 ^ 8 := UInt8.toNat_shiftLeft byte 1
  simp only [byteBits, moved, List.map_cons, List.map_nil, Nat.testBit_mod_two_pow,
    Nat.testBit_shiftLeft, List.tail_cons, List.cons_append, List.nil_append]
  rfl

theorem topBit_iff (byte : UInt8) : byte &&& 0x80 ≠ 0 ↔ byte.toNat.testBit 7 = true := by
  have masked : (byte &&& 0x80).toNat = (byte.toNat.testBit 7).toNat * 2 ^ 7 :=
    Nat.and_two_pow byte.toNat 7
  rw [ne_eq, ← UInt8.toNat_inj, masked]
  cases byte.toNat.testBit 7 <;> simp

/-- The register of the code is the shift register with the taps of the polynomial. -/
theorem byteBits_crcBit (crc : UInt8) : byteBits (crcBit crc) = advance taps (byteBits crc) := by
  have split : byteBits crc = crc.toNat.testBit 7 :: (byteBits crc).tail := rfl
  rw [split, advance, crcBit]
  by_cases top : crc.toNat.testBit 7 = true
  · rw [if_pos ((topBit_iff crc).mpr top), if_pos top, byteBits_xor, byteBits_shift]
    rfl
  · rw [if_neg (mt (topBit_iff crc).mp top), if_neg top, byteBits_shift]

theorem byteBits_iterate (count : Nat) (crc : UInt8) :
    byteBits (crcBit^[count] crc) = (advance taps)^[count] (byteBits crc) := by
  induction count generalizing crc with
  | zero => rfl
  | succ count ih => rw [Function.iterate_succ_apply, Function.iterate_succ_apply, ih,
      byteBits_crcBit]

theorem ofBits_fold (data : List UInt8) (crc : UInt8) :
    ofBits (byteBits (data.foldl (fun crc byte => crcBit^[8] (crc ^^^ byte)) crc)) =
      (ofBits (byteBits crc) * X ^ (stringBits data).length +
        ofBits (stringBits data) * X ^ 8) %ₘ divisor taps := by
  induction data generalizing crc with
  | nil =>
      have reduced := ofBits_mod taps (byteBits crc) (byteBits_length crc)
      simpa [stringBits] using reduced.symm
  | cons byte rest ih =>
      have string : stringBits (byte :: rest) = byteBits byte ++ stringBits rest := rfl
      have mixed : ofBits (byteBits (crc ^^^ byte)) =
          ofBits (byteBits crc) + ofBits (byteBits byte) := by
        rw [byteBits_xor, ofBits_xor]
        rfl
      have sum : (ofBits (byteBits crc) + ofBits (byteBits byte)) * X ^ 8 *
          X ^ (stringBits rest).length + ofBits (stringBits rest) * X ^ 8 =
          ofBits (byteBits crc) * X ^ (8 + (stringBits rest).length) +
            (ofBits (byteBits byte) * X ^ (stringBits rest).length +
              ofBits (stringBits rest)) * X ^ 8 := by
        ring
      rw [List.foldl_cons, ih, byteBits_iterate, ofBits_iterate taps 8 _ (byteBits_length _),
        mixed, add_modByMonic, mod_mul, ← add_modByMonic, sum, string, ofBits_append,
        List.length_append, byteBits_length byte]

theorem ofBits_crc8 (data : List UInt8) :
    ofBits (byteBits (htu21dCrc8 data)) =
      (ofBits (stringBits data) * X ^ 8) %ₘ divisor taps := by
  have zero : ofBits (byteBits 0x00) = 0 := ofBits_zeros 8
  rw [htu21dCrc8, ofBits_fold, zero, zero_mul, zero_add]

/-- A string and its own checksum together are a multiple of the divisor. -/
theorem divisor_dvd_checked (data : List UInt8) :
    divisor taps ∣ ofBits (stringBits (data ++ [htu21dCrc8 data])) := by
  have whole : ofBits (stringBits (data ++ [htu21dCrc8 data])) =
      ofBits (stringBits data) * X ^ 8 + (ofBits (stringBits data) * X ^ 8) %ₘ divisor taps := by
    rw [← ofBits_crc8, stringBits, List.flatMap_append, ofBits_append]
    rfl
  have less := dvd_modByMonic_sub (ofBits (stringBits data) * X ^ 8) (divisor taps)
  rw [CharTwo.sub_eq_add] at less
  rw [whole, add_comm]
  exact less

theorem stringBits_length (data : List UInt8) : (stringBits data).length = 8 * data.length := by
  induction data with
  | nil => rfl
  | cons byte rest ih =>
      rw [stringBits, List.flatMap_cons, List.length_append]
      change 8 + (stringBits rest).length = 8 * (rest.length + 1)
      rw [ih]
      ring

theorem crc8_detects_burst (data received : List UInt8) (check : UInt8)
    (same : received.length = data.length)
    (burst : Burst 8 (List.zipWith xor (stringBits (data ++ [htu21dCrc8 data]))
      (stringBits (received ++ [check])))) : htu21dCrc8 received ≠ check := by
  intro agreed
  subst agreed
  apply divisor_not_dvd_burst taps rfl _ burst
  rw [ofBits_xor _ _ (by simp [stringBits_length, same])]
  exact (divisor_dvd_checked data).add (divisor_dvd_checked received)

theorem crc8_polynomial_and_bursts :
    (∀ data : List UInt8, ofBits (byteBits (htu21dCrc8 data)) =
      (ofBits (stringBits data) * X ^ 8) %ₘ (X ^ 8 + X ^ 5 + X ^ 4 + 1)) ∧
    ∀ (data received : List UInt8) (check : UInt8), received.length = data.length →
      Burst 8 (List.zipWith xor (stringBits (data ++ [htu21dCrc8 data]))
        (stringBits (received ++ [check]))) →
      htu21dCrc8 received ≠ check := by
  constructor
  · intro data
    rw [← divisor_taps]
    exact ofBits_crc8 data
  · exact crc8_detects_burst

/-- Two bits of the last byte and two of its checksum are turned over. -/
theorem crc8_straddling_burst : htu21dCrc8 [0x68, 0x39] ≠ 0xBC := by
  refine crc8_polynomial_and_bursts.2 [0x68, 0x3A] [0x68, 0x39] 0xBC rfl
    ⟨14, [true, true, true, true, false, false], 4, ?_, ?_, ?_⟩
  all_goals decide +kernel

/-! ## The measurement -/

abbrev Delivery := Option (List UInt8)

inductive Errno where
  | einval
  | eio
  deriving DecidableEq

/-- `errno` is none where the function leaves it as it was. -/
structure Measurement where
  ret : Int
  out : ℚ
  errno : Option Errno
  deriving DecidableEq

def rawWord (high low : UInt8) : UInt16 :=
  ((high.toUInt16 <<< 8) ||| low.toUInt16) &&& 0xFFFC

def converted (isTemp : Bool) (raw : UInt16) : ℚ :=
  if isTemp then -46.85 + (175.72 * raw.toNat / 65536)
  else
    let out : ℚ := -6 + (125 * raw.toNat / 65536)
    let out := if out < 0 then 0 else out
    if 100 < out then 100 else out

/-- The loop over the attempts, `left` of them still to come. -/
def attempts (reads : Nat → Delivery) (isTemp : Bool) (out : ℚ) : Nat → Nat → Measurement
  | _, 0 => ⟨-1, out, some .eio⟩
  | attempt, left + 1 =>
      match reads attempt with
      | some [high, low, check] =>
          if htu21dCrc8 [high, low] ≠ check then attempts reads isTemp out (attempt + 1) left
          else
            let raw := rawWord high low
            if raw = 0xFFFC ∨ raw = 0x0000 then attempts reads isTemp out (attempt + 1) left
            else ⟨0, converted isTemp raw, none⟩
      | _ => attempts reads isTemp out (attempt + 1) left

/-- `written` is what `write` returned for the command byte. -/
def htu21dReadMeasurement (written : Int) (reads : Nat → Delivery) (out : ℚ) (isTemp : Bool) :
    Measurement :=
  if written ≠ 1 then ⟨-1, out, none⟩ else attempts reads isTemp out 0 10

/-- Three bytes whose checksum matches and whose masked word is neither extreme. -/
def Valid (delivery : Delivery) (raw : UInt16) : Prop :=
  ∃ high low check, delivery = some [high, low, check] ∧ htu21dCrc8 [high, low] = check ∧
    raw = rawWord high low ∧ raw ≠ 0x0000 ∧ raw ≠ 0xFFFC

def formula (isTemp : Bool) (raw : UInt16) : ℚ :=
  if isTemp then -46.85 + 175.72 * (raw.toNat / 65536)
  else max 0 (min 100 (-6 + 125 * (raw.toNat / 65536)))

theorem converted_eq (isTemp : Bool) (raw : UInt16) :
    converted isTemp raw = formula isTemp raw := by
  cases isTemp with
  | true => simp [converted, formula, mul_div_assoc]
  | false =>
      simp only [converted, formula, mul_div_assoc, Bool.false_eq_true, if_false]
      generalize (-6 + 125 * ((raw.toNat : ℚ) / 65536)) = value
      rcases lt_or_ge value 0 with low | low
      · have under : value ≤ 100 := low.le.trans (by norm_num)
        rw [if_pos low, if_neg (by norm_num), min_eq_right under, max_eq_left low.le]
      · rw [if_neg low.not_gt]
        rcases lt_or_ge 100 value with high | high
        · rw [if_pos high, min_eq_left high.le, max_eq_right (by norm_num)]
        · rw [if_neg high.not_gt, min_eq_right high, max_eq_right low]

theorem humidity_bounds (raw : UInt16) : 0 ≤ formula false raw ∧ formula false raw ≤ 100 :=
  ⟨le_max_left _ _, max_le (by norm_num) (min_le_left _ _)⟩

section
variable (reads : Nat → Delivery) (isTemp : Bool) (out : ℚ)

theorem attempts_valid (attempt left : Nat) (raw : UInt16) (valid : Valid (reads attempt) raw) :
    attempts reads isTemp out attempt (left + 1) = ⟨0, formula isTemp raw, none⟩ := by
  obtain ⟨high, low, check, read, matched, rfl, notLow, notHigh⟩ := valid
  have kept : ¬ (rawWord high low = 0xFFFC ∨ rawWord high low = 0x0000) :=
    not_or.mpr ⟨notHigh, notLow⟩
  simp only [attempts, read, matched, ne_eq, not_true, if_false]
  rw [if_neg kept, converted_eq]

theorem attempts_invalid (attempt left : Nat)
    (invalid : ∀ raw, ¬ Valid (reads attempt) raw) :
    attempts reads isTemp out attempt (left + 1) =
      attempts reads isTemp out (attempt + 1) left := by
  rw [attempts]
  split
  · rename_i high low check read
    by_cases wrong : htu21dCrc8 [high, low] ≠ check
    · rw [if_pos wrong]
    · rw [if_neg wrong]
      refine if_pos ?_
      by_contra extremes
      obtain ⟨notHigh, notLow⟩ := not_or.mp extremes
      exact invalid _ ⟨high, low, check, read, not_not.mp wrong, rfl, notLow, notHigh⟩
  · rfl

/-- From any attempt on: the earliest valid read of those left, or none of them is. -/
theorem attempts_cases (left attempt : Nat) :
    (∃ i raw, attempt ≤ i ∧ i < attempt + left ∧ Valid (reads i) raw ∧
      (∀ j, attempt ≤ j → j < i → ∀ other, ¬ Valid (reads j) other) ∧
      attempts reads isTemp out attempt left = ⟨0, formula isTemp raw, none⟩) ∨
    ((∀ i, attempt ≤ i → i < attempt + left → ∀ raw, ¬ Valid (reads i) raw) ∧
      attempts reads isTemp out attempt left = ⟨-1, out, some .eio⟩) := by
  induction left generalizing attempt with
  | zero => exact .inr ⟨fun i from_ upTo => absurd upTo (by omega), rfl⟩
  | succ left ih =>
      by_cases now : ∃ raw, Valid (reads attempt) raw
      · obtain ⟨raw, valid⟩ := now
        exact .inl ⟨attempt, raw, le_refl _, by omega, valid,
          fun j from_ before => absurd before (by omega),
          attempts_valid reads isTemp out attempt left raw valid⟩
      · have rejected := not_exists.mp now
        rw [attempts_invalid reads isTemp out attempt left rejected]
        rcases ih (attempt + 1) with ⟨i, raw, after, upTo, valid, earlier, result⟩ | ⟨none, result⟩
        · refine .inl ⟨i, raw, by omega, by omega, valid, fun j start before => ?_, result⟩
          rcases Nat.eq_or_lt_of_le start with same | later
          · exact same ▸ rejected
          · exact earlier j later before
        · refine .inr ⟨fun i start upTo => ?_, result⟩
          rcases Nat.eq_or_lt_of_le start with same | later
          · exact same ▸ rejected
          · exact none i later (by omega)

end

theorem htu21dReadMeasurement_spec (written : Int) (reads : Nat → Delivery) (out : ℚ)
    (isTemp : Bool) :
    let result := htu21dReadMeasurement written reads out isTemp
    (result.ret = 0 ↔ written = 1 ∧ ∃ i < 10, ∃ raw, Valid (reads i) raw) ∧
    (result.ret = 0 → ∃ i < 10, ∃ raw, Valid (reads i) raw ∧
      (∀ j < i, ∀ other, ¬ Valid (reads j) other) ∧ result.out = formula isTemp raw ∧
      (isTemp = false → 0 ≤ result.out ∧ result.out ≤ 100)) ∧
    (result.ret ≠ 0 → result.ret = -1 ∧ result.out = out) := by
  intro result
  by_cases sent : written = 1
  · have run : result = attempts reads isTemp out 0 10 := if_neg (not_not.mpr sent)
    rcases attempts_cases reads isTemp out 10 0 with
      ⟨i, raw, -, upTo, valid, earlier, value⟩ | ⟨none, value⟩
    · have ten : i < 10 := by simpa using upTo
      have bounds : isTemp = false → 0 ≤ formula isTemp raw ∧ formula isTemp raw ≤ 100 :=
        fun humidity => humidity ▸ humidity_bounds raw
      rw [run, value]
      exact ⟨iff_of_true rfl ⟨sent, i, ten, raw, valid⟩,
        fun _ => ⟨i, ten, raw, valid, fun j => earlier j (Nat.zero_le j), rfl, bounds⟩,
        fun failed => absurd rfl failed⟩
    · have all : ∀ i < 10, ∀ raw, ¬ Valid (reads i) raw :=
        fun i upTo => none i (Nat.zero_le i) (by simpa using upTo)
      rw [run, value]
      refine ⟨iff_of_false (by simp) ?_, fun done => by simp at done, fun _ => ⟨rfl, rfl⟩⟩
      rintro ⟨-, i, upTo, raw, valid⟩
      exact all i upTo raw valid
  · have run : result = ⟨-1, out, none⟩ := if_pos sent
    rw [run]
    exact ⟨iff_of_false (by simp) fun both => sent both.1, fun done => by simp at done,
      fun _ => ⟨rfl, rfl⟩⟩

theorem htu21dReadMeasurement_retried :
    ∃ i < 10, ∃ raw, Valid (if i = 0 then none else some [0x68, 0x3A, 0x7C]) raw ∧
      (htu21dReadMeasurement 1 (fun i => if i = 0 then none else some [0x68, 0x3A, 0x7C]) 0
        true).out = formula true raw := by
  have read := (htu21dReadMeasurement_spec 1
    (fun i => if i = 0 then none else some [0x68, 0x3A, 0x7C]) 0 true).2.1 (by decide +kernel)
  obtain ⟨i, upTo, raw, valid, -, value, -⟩ := read
  exact ⟨i, upTo, raw, valid, value⟩

end SensorNode.Htu21dReading
