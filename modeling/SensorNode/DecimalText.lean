import Mathlib.Data.Nat.Digits.Lemmas
import Mathlib.Data.Nat.Digits.Defs
import SensorNode.LineStream

/-!
Decimal numerals as `printf` writes them: `%ld` for an integer and `%.2f` for a
`float` promoted to double. A finite float is an exact binary fraction, so its
two decimals are the exact value rounded half to even. The length bounds below
are those of a 64-bit integer and of the largest binary32 magnitude.
-/

namespace SensorNode.DecimalText

open LineStream

def digitByte (digit : Nat) : UInt8 := UInt8.ofNat (48 + digit)

def isDigit (byte : UInt8) : Bool := decide (48 ≤ byte) && decide (byte ≤ 57)

def digitValue (byte : UInt8) : Nat := byte.toNat - 48

def digitsValue (digits : Bytes) : Nat :=
  digits.foldl (fun total byte => 10 * total + digitValue byte) 0

def hexValue (byte : UInt8) : Option Nat :=
  if isDigit byte then some (digitValue byte)
  else if 65 ≤ byte ∧ byte ≤ 70 then some (byte.toNat - 55)
  else if 97 ≤ byte ∧ byte ≤ 102 then some (byte.toNat - 87)
  else none

def spanDigits (text : Bytes) : Bytes × Bytes :=
  (text.takeWhile isDigit, text.dropWhile isDigit)

def decimal (number : Nat) : Bytes :=
  if number = 0 then [digitByte 0] else (Nat.digits 10 number).reverse.map digitByte

/-- `%ld`. -/
def decimalInt (number : Int) : Bytes :=
  if number < 0 then ascii "-" ++ decimal number.natAbs else decimal number.natAbs

theorem digitByte_isDigit : ∀ digit < 10, isDigit (digitByte digit) = true := by decide

theorem digitByte_value : ∀ digit < 10, digitValue (digitByte digit) = digit := by decide

theorem digitByte_pos : ∀ digit < 10, digit ≠ 0 → digitByte digit ≠ digitByte 0 := by decide

theorem decimal_digits (number : Nat) : ∀ byte ∈ decimal number, isDigit byte = true := by
  intro byte member
  by_cases zero : number = 0
  · simp only [decimal, zero, ↓reduceIte, List.mem_singleton] at member
    exact member ▸ digitByte_isDigit 0 (by decide)
  · simp only [decimal, zero, ↓reduceIte, List.mem_map, List.mem_reverse] at member
    obtain ⟨digit, digits, same⟩ := member
    exact same ▸ digitByte_isDigit digit (Nat.digits_lt_base (by decide) digits)

theorem decimal_nonempty (number : Nat) : decimal number ≠ [] := by
  by_cases zero : number = 0
  · simp [decimal, zero]
  · simp [decimal, zero, Nat.digits_ne_nil_iff_ne_zero]

theorem decimal_value (number : Nat) : digitsValue (decimal number) = number := by
  by_cases zero : number = 0
  · subst number
    rfl
  · have digits : ∀ digit ∈ Nat.digits 10 number, digitValue (digitByte digit) = digit :=
      fun digit member => digitByte_value digit (Nat.digits_lt_base (by decide) member)
    have folded : ∀ digits : List Nat, (∀ digit ∈ digits, digitValue (digitByte digit) = digit) →
        digits.foldr (fun digit total => 10 * total + digitValue (digitByte digit)) 0 =
          Nat.ofDigits 10 digits := by
      intro digits decoded
      induction digits with
      | nil => rfl
      | cons digit rest ih =>
          have head := decoded digit List.mem_cons_self
          have tail := ih fun other member => decoded other (List.mem_cons_of_mem digit member)
          simp only [List.foldr_cons, tail, head, Nat.ofDigits_cons]
          omega
    simp only [digitsValue, decimal, zero, ↓reduceIte, List.foldl_map, List.foldl_reverse]
    rw [folded _ digits, Nat.ofDigits_digits]

theorem decimal_length (number width : Nat) (positive : 0 < width)
    (bound : number < 10 ^ width) : (decimal number).length ≤ width := by
  by_cases zero : number = 0
  · simp only [decimal, zero, ↓reduceIte, List.length_singleton]
    exact positive
  · simp only [decimal, zero, ↓reduceIte, List.length_map, List.length_reverse]
    exact (Nat.digits_length_le_iff (by decide) number).mpr bound

theorem decimal_leading (number : Nat) (nonzero : number ≠ 0) :
    ∃ digit rest, decimal number = digit :: rest ∧ digit ≠ digitByte 0 ∧
      isDigit digit = true := by
  have present : Nat.digits 10 number ≠ [] := Nat.digits_ne_nil_iff_ne_zero.mpr nonzero
  have last := Nat.getLast_digit_ne_zero 10 nonzero
  have small : (Nat.digits 10 number).getLast present < 10 :=
    Nat.digits_lt_base (by decide) (List.getLast_mem present)
  have split : (Nat.digits 10 number).reverse =
      (Nat.digits 10 number).getLast present :: (Nat.digits 10 number).dropLast.reverse := by
    conv_lhs => rw [← List.dropLast_concat_getLast present]
    simp
  refine ⟨_, (Nat.digits 10 number).dropLast.reverse.map digitByte, ?_,
    digitByte_pos _ small last, digitByte_isDigit _ small⟩
  simp [decimal, nonzero, split]

theorem decimalInt_length (number : Int) (low : -2 ^ 63 ≤ number) (high : number < 2 ^ 63) :
    (decimalInt number).length ≤ 20 := by
  have magnitude : number.natAbs < 10 ^ 19 := by omega
  have digits := decimal_length number.natAbs 19 (by decide) magnitude
  by_cases negative : number < 0
  · simp only [decimalInt, negative, ↓reduceIte, List.length_append]
    have sign : (ascii "-").length = 1 := rfl
    omega
  · simp only [decimalInt, negative, ↓reduceIte]
    omega

/-! ## Two decimals of a binary32 value -/

open Float.Model (Format UnpackedFloat)
open Float.Model.UnpackedFloat (Sign)

def roundHalfEven (numerator denominator : Nat) : Nat :=
  let quotient := numerator / denominator
  let remainder := numerator % denominator
  if 2 * remainder < denominator then quotient
  else if denominator < 2 * remainder then quotient + 1
  else quotient + quotient % 2

/-- The magnitude `mantissa * 2 ^ exponent` in hundredths. -/
def magnitudeHundredths (mantissa : Nat) : Int → Nat
  | .ofNat exponent => mantissa * 2 ^ exponent * 100
  | .negSucc exponent => roundHalfEven (mantissa * 100) (2 ^ (exponent + 1))

def fixed2 (hundredths : Nat) : Bytes :=
  decimal (hundredths / 100) ++ ascii "." ++
    [digitByte (hundredths / 10 % 10), digitByte (hundredths % 10)]

def signText : Sign → Bytes
  | .negative => ascii "-"
  | .positive => []

/-- `%.2f`. -/
def printFloat2 (value : Float32) : Bytes :=
  match value.toModel.unpack with
  | .finite sign mantissa exponent _ =>
      signText sign ++ fixed2 (magnitudeHundredths mantissa exponent)
  | .zero sign => signText sign ++ fixed2 0
  | .infinity sign => signText sign ++ ascii "inf"
  | .notANumber => ascii "nan"

/-- What the two printed decimals denote, in hundredths; none when not finite. -/
def floatHundredths (value : Float32) : Option Int :=
  match value.toModel.unpack with
  | .finite sign mantissa exponent _ => some (sign.apply (magnitudeHundredths mantissa exponent))
  | .zero _ => some 0
  | .infinity _ => none
  | .notANumber => none

theorem floatHundredths_finite (value : Float32) :
    (floatHundredths value).isSome = value.isFinite := by
  unfold floatHundredths Float32.isFinite Float32.Model.isFinite
  cases value.toModel.unpack <;> rfl

/-- A finite binary32 value has a 24-bit mantissa and an exponent up to 104. -/
theorem unpack_bounds (value : Float32) (sign : Sign) (mantissa : Nat) (exponent : Int)
    (positive : 0 < mantissa)
    (found : value.toModel.unpack = .finite sign mantissa exponent positive) :
    mantissa < 2 ^ 24 ∧ exponent ≤ 104 := by
  unfold Float32.Model.unpack UnpackedFloat.unpack at found
  have fractionBound : (@UnpackedFloat.unpackMantissa Format.binary32
      value.toModel.toBits.toBitVec).toNat < 2 ^ 23 := BitVec.isLt _
  generalize @UnpackedFloat.unpackExponent Format.binary32
    value.toModel.toBits.toBitVec = biased at found
  have biasedBound : biased.toNat < 2 ^ 8 := biased.isLt
  have bias : Format.exponentBias Format.binary32 = 127 := rfl
  rw [bias] at found
  by_cases full : biased = -BitVec.ofNat _ 1
  · rw [if_pos full] at found
    -- An exponent field of all ones is an infinity or a NaN.
    by_cases zero : @UnpackedFloat.unpackMantissa Format.binary32
        value.toModel.toBits.toBitVec = BitVec.ofNat _ 0
    · rw [if_pos zero] at found
      cases found
    · rw [if_neg zero] at found
      cases found
  · rw [if_neg full] at found
    have below : biased.toNat ≠ 255 := fun value => full (BitVec.eq_of_toNat_eq value)
    by_cases subnormal : biased = BitVec.ofNat _ 0
    · rw [if_pos subnormal] at found
      by_cases zero : @UnpackedFloat.unpackMantissa Format.binary32
          value.toModel.toBits.toBitVec = BitVec.ofNat _ 0
      · rw [dif_pos zero] at found
        cases found
      · rw [dif_neg zero] at found
        cases found
        constructor
        · omega
        · rw [subnormal]
          decide
    · rw [if_neg subnormal] at found
      cases found
      constructor
      · exact BitVec.isLt _
      · show (biased.toNat : Int) - (127 + 23) ≤ 104
        omega

theorem roundHalfEven_le (numerator denominator : Nat) :
    roundHalfEven numerator denominator ≤ numerator / denominator + 1 := by
  unfold roundHalfEven
  simp only
  split
  · omega
  · split <;> omega

theorem magnitudeHundredths_le (mantissa bound top : Nat) (exponent : Int)
    (small : mantissa < bound) (limit : exponent ≤ top) :
    magnitudeHundredths mantissa exponent ≤ bound * 2 ^ top * 100 := by
  cases exponent with
  | ofNat exponent =>
      have inside : exponent ≤ top := Int.ofNat_le.mp limit
      have power : 2 ^ exponent ≤ 2 ^ top := Nat.pow_le_pow_right (by decide) inside
      exact Nat.mul_le_mul_right 100 (Nat.mul_le_mul small.le power)
  | negSucc exponent =>
      have rounded := roundHalfEven_le (mantissa * 100) (2 ^ (exponent + 1))
      have quotient : mantissa * 100 / 2 ^ (exponent + 1) ≤ mantissa * 100 := Nat.div_le_self _ _
      have scale : bound ≤ bound * 2 ^ top := Nat.le_mul_of_pos_right bound (Nat.two_pow_pos top)
      simp only [magnitudeHundredths]
      omega

theorem magnitudeHundredths_bound (mantissa : Nat) (exponent : Int)
    (small : mantissa < 2 ^ 24) (limit : exponent ≤ 104) :
    magnitudeHundredths mantissa exponent < 10 ^ 41 :=
  (magnitudeHundredths_le mantissa (2 ^ 24) 104 exponent small limit).trans_lt (by decide)

theorem fixed2_length (hundredths : Nat) (bound : hundredths < 10 ^ 41) :
    (fixed2 hundredths).length ≤ 42 := by
  have whole : hundredths / 100 < 10 ^ 39 := by omega
  have digits := decimal_length (hundredths / 100) 39 (by decide) whole
  have point : (ascii ".").length = 1 := rfl
  simp only [fixed2, List.length_append, List.length_cons, List.length_nil]
  omega

theorem signText_length (sign : Sign) : (signText sign).length ≤ 1 := by
  cases sign <;> decide

theorem printFloat2_length (value : Float32) : (printFloat2 value).length ≤ 43 := by
  unfold printFloat2
  cases found : value.toModel.unpack with
  | finite sign mantissa exponent positive =>
      obtain ⟨small, limit⟩ := unpack_bounds value sign mantissa exponent positive found
      have text := fixed2_length _ (magnitudeHundredths_bound mantissa exponent small limit)
      have prefixed := signText_length sign
      show (signText sign ++ fixed2 (magnitudeHundredths mantissa exponent)).length ≤ 43
      rw [List.length_append]
      omega
  | zero sign =>
      have text := fixed2_length 0 (by decide)
      have prefixed := signText_length sign
      simp only [List.length_append]
      omega
  | infinity sign =>
      have text : (ascii "inf").length = 3 := rfl
      have prefixed := signText_length sign
      simp only [List.length_append]
      omega
  | notANumber => decide

/-! ## The bytes of a numeral -/

/-- Visible ASCII: what a numeral, or any format string here, is made of. -/
def Printable (text : Bytes) : Prop := ∀ byte ∈ text, 32 ≤ byte ∧ byte < 128

instance (text : Bytes) : Decidable (Printable text) :=
  List.decidableBAll _ text

theorem printable_append (left right : Bytes) (first : Printable left)
    (second : Printable right) : Printable (left ++ right) := by
  intro byte member
  rcases List.mem_append.mp member with inLeft | inRight
  · exact first byte inLeft
  · exact second byte inRight

theorem digit_printable (byte : UInt8) (digit : isDigit byte = true) :
    32 ≤ byte ∧ byte < 128 := by
  simp only [isDigit, Bool.and_eq_true, decide_eq_true_eq] at digit
  exact ⟨UInt8.le_trans (by decide) digit.1, UInt8.lt_of_le_of_lt digit.2 (by decide)⟩

theorem decimal_printable (number : Nat) : Printable (decimal number) := fun byte member =>
  digit_printable byte (decimal_digits number byte member)

theorem decimalInt_printable (number : Int) : Printable (decimalInt number) := by
  unfold decimalInt
  split
  · exact printable_append _ _ (by decide) (decimal_printable _)
  · exact decimal_printable _

theorem fixed2_printable (hundredths : Nat) : Printable (fixed2 hundredths) := by
  apply printable_append _ _ (printable_append _ _ (decimal_printable _) (by decide))
  intro byte member
  simp only [List.mem_cons, List.not_mem_nil, or_false] at member
  rcases member with same | same <;> subst same <;>
    exact digit_printable _ (digitByte_isDigit _ (Nat.mod_lt _ (by decide)))

theorem signText_printable (sign : Sign) : Printable (signText sign) := by
  cases sign <;> decide

theorem printFloat2_printable (value : Float32) : Printable (printFloat2 value) := by
  unfold printFloat2
  cases value.toModel.unpack with
  | finite sign mantissa exponent _ =>
      exact printable_append _ _ (signText_printable sign) (fixed2_printable _)
  | zero sign => exact printable_append _ _ (signText_printable sign) (fixed2_printable _)
  | infinity sign => exact printable_append _ _ (signText_printable sign) (by decide)
  | notANumber => decide

end SensorNode.DecimalText
