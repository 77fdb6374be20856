import Mathlib
import SensorNode.DecimalText

/-!
`%.2f` of a `double`, and how long its text can get. A value's range is carried
by its exponent: conversion from an integer, division and packing each keep it
within a bound, which leaves the printed text far shorter than the 309 digits a
binary64 may need.
-/

namespace SensorNode.DoubleText

open LineStream DecimalText
open Float.Model (Format UnpackedFloat)
open Float.Model.UnpackedFloat

/-- `%.2f` of an unpacked value, whatever its width. -/
def printFixed2 : UnpackedFloat → Bytes
  | .finite sign mantissa exponent _ =>
      signText sign ++ fixed2 (magnitudeHundredths mantissa exponent)
  | .zero sign => signText sign ++ fixed2 0
  | .infinity sign => signText sign ++ ascii "inf"
  | .notANumber => ascii "nan"

def printDouble2 (value : Float) : Bytes := printFixed2 value.toModel.unpack

theorem printFloat2_fixed (value : Float32) :
    printFloat2 value = printFixed2 value.toModel.unpack := by
  unfold printFloat2 printFixed2
  cases value.toModel.unpack <;> rfl

/-- A finite value whose exponent stays within the bound. -/
def Reaches (bound : Int) : UnpackedFloat → Prop
  | .zero _ => True
  | .finite _ _ exponent _ => exponent ≤ bound
  | .infinity _ => False
  | .notANumber => False

theorem unpack_mantissa (bits : BitVec 64) (sign : Sign) (mantissa : Nat) (exponent : Int)
    (positive : 0 < mantissa)
    (found : unpack Format.binary64 bits = .finite sign mantissa exponent positive) :
    mantissa < 2 ^ 53 := by
  simp only [unpack] at found
  split at found
  · split at found <;> cases found
  · split at found
    · split at found <;> cases found
      exact lt_trans (BitVec.isLt _) (by decide)
    · cases found
      exact BitVec.isLt _

theorem unpack_pack_reaches (bound : Int) (value : UnpackedFloat) (low : -1074 ≤ bound)
    (high : bound ≤ 900) (reaches : Reaches bound value) :
    Reaches bound (unpack Format.binary64 (pack Format.binary64 value)) := by
  have bias : Format.exponentBias Format.binary64 = 1023 := rfl
  cases value with
  | infinity sign => exact reaches.elim
  | notANumber => exact reaches.elim
  | zero sign => simp [pack, packedZero, unpack, Reaches]
  | finite sign mantissa exponent positive =>
      have bounded : exponent ≤ bound := reaches
      have small : ¬ 2 ^ 11 ≤ (exponent + 1023 + 52).toNat + 1 := by omega
      have field : (BitVec.ofNat 11 (exponent + 1023 + 52).toNat).toNat =
          (exponent + 1023 + 52).toNat := by
        rw [BitVec.toNat_ofNat]
        exact Nat.mod_eq_of_lt (by omega)
      simp only [pack, bias, Nat.cast_ofNat]
      rw [if_neg small]
      split
      · -- A normal number keeps its exponent.
        simp only [unpack, unpackExponent_packComponents, unpackMantissa_packComponents, bias]
        split
        · next full =>
          have value : (exponent + 1023 + 52).toNat = 2 ^ 11 - 1 :=
            field.symm.trans (congrArg BitVec.toNat full)
          omega
        · split
          · split
            · trivial
            · next zero _ =>
              rw [zero]
              exact low
          · next nonzero =>
            have positive : (exponent + 1023 + 52).toNat ≠ 0 := by
              intro zero
              apply nonzero
              show BitVec.ofNat 11 (exponent + 1023 + 52).toNat = 0#11
              rw [zero]
            show ((BitVec.ofNat 11 (exponent + 1023 + 52).toNat).toNat : Int) - (1023 + 52) ≤ bound
            rw [field]
            omega
      · simp only [unpack, unpackExponent_packComponents, unpackMantissa_packComponents, bias]
        rw [if_neg (by decide), if_pos trivial]
        split
        · trivial
        · exact low

/-! ## Rounding -/

theorem shiftRight_mantissa (count : Nat) (extended : ExtendedMantissa) :
    (extended >>> count).mantissa ≤ extended.mantissa := by
  show (count.repeat ExtendedMantissa.shiftRightOne extended).mantissa ≤ extended.mantissa
  induction count with
  | zero => exact le_refl _
  | succ count ih =>
      rw [Nat.repeat]
      exact (Nat.div_le_self _ _).trans ih

theorem roundedMantissa_le (extended : ExtendedMantissa) :
    extended.roundedMantissa ≤ extended.mantissa + 1 := by
  unfold ExtendedMantissa.roundedMantissa
  cases extended.accuracy with
  | exact => exact Nat.le_succ _
  | inexact place =>
      cases place with
      | lt => exact Nat.le_succ _
      | eq =>
          have odd := Nat.mod_lt extended.mantissa (y := 2) (by decide)
          simp only [Accuracy.roundToNearestEven]
          omega
      | gt => exact le_refl _

theorem ofMantissaAndAccuracy_mantissa (mantissa : Nat) (accuracy : Accuracy) :
    (ExtendedMantissa.ofMantissaAndAccuracy mantissa accuracy).mantissa = mantissa := by
  cases accuracy with
  | exact => rfl
  | inexact place => cases place <;> rfl

theorem shiftToTargetExponent_bounds (mantissa : Nat) (exponent : Int) (accuracy : Accuracy) :
    (shiftToTargetExponent Format.binary64 mantissa exponent accuracy).1.mantissa ≤ mantissa ∧
    (shiftToTargetExponent Format.binary64 mantissa exponent accuracy).2 =
      max exponent (max (mantissa.log2 + 1 + exponent - 53) (-1074)) := by
  constructor
  · refine (shiftRight_mantissa _ _).trans ?_
    rw [ofMantissaAndAccuracy_mantissa]
  · show exponent + ((max (mantissa.log2 + 1 + exponent - 53) (-1074) - exponent).toNat : Int) = _
    omega

theorem log2_le (mantissa bits : Nat) (small : mantissa ≤ 2 ^ bits) : mantissa.log2 ≤ bits := by
  by_cases zero : mantissa = 0
  · simp [zero]
  · apply Nat.le_of_lt_succ
    apply (Nat.log2_lt zero).mpr
    exact small.trans_lt (Nat.pow_lt_pow_right (by decide) (Nat.lt_succ_self bits))

/-- Rounding a mantissa of so many bits raises the exponent by no more than them. -/
theorem roundWithAccuracy_reaches (sign : Sign) (mantissa bits : Nat) (exponent bound : Int)
    (accuracy : Accuracy) (small : mantissa < 2 ^ bits) (low : -1074 ≤ bound)
    (within : exponent ≤ bound) (total : bits + exponent ≤ bound + 53) :
    Reaches (bound + bits)
      (roundWithAccuracy Format.binary64 sign mantissa exponent accuracy) := by
  have first := shiftToTargetExponent_bounds mantissa exponent accuracy
  unfold roundWithAccuracy
  generalize shiftToTargetExponent Format.binary64 mantissa exponent accuracy = shifted at first ⊢
  obtain ⟨extended, raised⟩ := shifted
  have second := shiftToTargetExponent_bounds extended.roundedMantissa raised .exact
  simp only
  generalize shiftToTargetExponent Format.binary64 extended.roundedMantissa raised .exact =
    again at second ⊢
  obtain ⟨final, last⟩ := again
  simp only at first second ⊢
  have rounded := roundedMantissa_le extended
  have before := log2_le mantissa bits small.le
  have after := log2_le extended.roundedMantissa bits (by omega)
  split
  · trivial
  · show last ≤ bound + bits
    omega

theorem round_reaches (sign : Sign) (mantissa : Nat) (small : mantissa ≤ 2 ^ 31) :
    Reaches 53 (UnpackedFloat.round Format.binary64 sign mantissa 0) := by
  have log := log2_le mantissa 31 small
  -- The mantissa is shifted left until it fills 53 bits.
  have target : Format.binary64.targetExponent (Float.Model.totalExponent mantissa 0) =
      mantissa.log2 - 52 := by
    simp only [Format.targetExponent, Float.Model.totalExponent, Format.mantissaBits,
      Format.minExponent]
    omega
  have amount : ((0 : Int) - (mantissa.log2 - 52)).toNat = 52 - mantissa.log2 := by omega
  have filled : mantissa <<< (52 - mantissa.log2) < 2 ^ 53 := by
    rw [Nat.shiftLeft_eq]
    calc mantissa * 2 ^ (52 - mantissa.log2)
        < 2 ^ (mantissa.log2 + 1) * 2 ^ (52 - mantissa.log2) :=
          Nat.mul_lt_mul_of_pos_right Nat.lt_log2_self (by positivity)
      _ = 2 ^ 53 := by
          rw [← pow_add]
          congr 1
          omega
  simp only [UnpackedFloat.round, decreaseExponent, target, amount]
  exact roundWithAccuracy_reaches sign _ 53 _ 0 .exact filled (by omega) (by omega) (by omega)

theorem ofInt32_reaches (number : Int32) : Reaches 53 (ofInt32 Format.binary64 number) := by
  have low : -2 ^ 31 ≤ number.toInt := Int32.le_toInt number
  have high : number.toInt < 2 ^ 31 := Int32.toInt_lt number
  simp only [ofInt32, ofInt, UnpackedFloat.normalize]
  split
  · exact round_reaches .negative _ (by omega)
  · trivial
  · exact round_reaches .positive _ (by omega)

def hundred : UnpackedFloat := .finite .positive (25 * 2 ^ 48) (-46) (by decide)

theorem div_hundred_reaches (value : UnpackedFloat) (reaches : Reaches 53 value)
    (mantissas : ∀ sign mantissa exponent positive,
      value = .finite sign mantissa exponent positive → mantissa < 2 ^ 53) :
    Reaches 154 (div Format.binary64 value hundred) := by
  cases value with
  | infinity sign => exact reaches.elim
  | notANumber => exact reaches.elim
  | zero sign => trivial
  | finite sign mantissa exponent positive =>
      have small := mantissas sign mantissa exponent positive rfl
      have near : exponent ≤ 53 := reaches
      have log : mantissa < 2 ^ (mantissa.log2 + 1) := Nat.lt_log2_self
      have logSmall := log2_le mantissa 53 small.le
      have hundredLog : (25 * 2 ^ 48 : Nat).log2 = 52 := by decide +kernel
      have target : Format.binary64.targetExponent
          (Float.Model.totalExponent mantissa exponent -
            Float.Model.totalExponent (25 * 2 ^ 48) (-46)) =
          max (mantissa.log2 + exponent - 59) (-1074) := by
        simp only [Format.targetExponent, Float.Model.totalExponent, Format.mantissaBits,
          Format.minExponent, hundredLog]
        omega
      simp only [hundred, div, divCore, target]
      generalize shifted : min (exponent - -46) (max (mantissa.log2 + exponent - 59) (-1074)) = goal
      have amount : (exponent - -46 - goal).toNat ≤ 105 - mantissa.log2 := by omega
      apply roundWithAccuracy_reaches _ _ 54 _ 100 _ _ (by omega) (by omega) (by omega)
      apply Nat.div_lt_of_lt_mul
      calc mantissa <<< (exponent - -46 - goal).toNat
          = mantissa * 2 ^ (exponent - -46 - goal).toNat := Nat.shiftLeft_eq _ _
        _ < 2 ^ (mantissa.log2 + 1) * 2 ^ (exponent - -46 - goal).toNat :=
            Nat.mul_lt_mul_of_pos_right log (by positivity)
        _ = 2 ^ (mantissa.log2 + 1 + (exponent - -46 - goal).toNat) := (pow_add 2 _ _).symm
        _ ≤ 2 ^ 106 := Nat.pow_le_pow_right (by decide) (by omega)
        _ ≤ 25 * 2 ^ 48 * 2 ^ 54 := by decide

/-! ## Integers in hundredths -/

/-- `(double)number / 100.0`. -/
def hundredths (number : Int32) : Float := .ofModel (.ofInt32 number) / 100.0

theorem hundredths_reaches (number : Int32) : Reaches 154 (hundredths number).toModel.unpack := by
  have exact' := unpack_pack_reaches 53 _ (by decide) (by decide) (ofInt32_reaches number)
  have literal : (100.0 : Float).toModel.unpack = hundred := by rfl
  show Reaches 154 (unpack Format.binary64 (pack Format.binary64
    (div Format.binary64 (unpack Format.binary64 (pack Format.binary64
      (ofInt32 Format.binary64 number))) (100.0 : Float).toModel.unpack)))
  rw [literal]
  apply unpack_pack_reaches 154 _ (by decide) (by decide)
  exact div_hundred_reaches _ exact' fun sign mantissa exponent positive found =>
    unpack_mantissa _ sign mantissa exponent positive found

theorem magnitudeHundredths_bound64 (mantissa : Nat) (exponent : Int)
    (small : mantissa < 2 ^ 53) (limit : exponent ≤ 154) :
    magnitudeHundredths mantissa exponent < 10 ^ 65 :=
  (magnitudeHundredths_le mantissa (2 ^ 53) 154 exponent small limit).trans_lt (by decide)

/-- The text of such a quotient is two decimals after at most 63 digits. -/
theorem printDouble2_hundredths (number : Int32) :
    ∃ sign total, printDouble2 (hundredths number) = signText sign ++ fixed2 total ∧
      total < 10 ^ 65 := by
  have reaches := hundredths_reaches number
  unfold printDouble2
  cases found : (hundredths number).toModel.unpack with
  | infinity sign =>
      rw [found] at reaches
      exact reaches.elim
  | notANumber =>
      rw [found] at reaches
      exact reaches.elim
  | zero sign => exact ⟨sign, 0, rfl, by decide⟩
  | finite sign mantissa exponent positive =>
      rw [found] at reaches
      have small := unpack_mantissa _ sign mantissa exponent positive found
      exact ⟨sign, _, rfl, magnitudeHundredths_bound64 mantissa exponent small reaches⟩

end SensorNode.DoubleText
