import SensorNode.ScanText

/-!
`strtoul` and `strtol` on the bytes of a C string: white space, a sign and the longest
numeral, with nothing said of what stands after it. A text that starts no numeral is the
number 0 and one too large is the nearest end of the range, so the result alone does not
tell whether the text was a number.
-/

namespace SensorNode.IntegerText

open LineStream DecimalText ScanText

def isDigitOf (base : Nat) (byte : UInt8) : Bool := (hexValue byte).any fun digit => digit < base

def scanDigits (base : Nat) (text : Bytes) : Option (Nat × Bytes) :=
  let digits := text.takeWhile (isDigitOf base)
  if digits = [] then none
  else some (digits.foldl (fun total byte => base * total + (hexValue byte).getD 0) 0,
    text.dropWhile (isDigitOf base))

/-- Base 0 is read off the numeral: `0x` for 16, a leading `0` for 8, else 10. -/
def scanNumeral (base : Nat) (text : Bytes) : Option (Nat × Bytes) :=
  if base ≠ 0 then scanDigits base text
  else if text.head? ≠ some 48 then scanDigits 10 text
  else if text.tail.head?.map lower = some 120 then
    -- `0x` with no digit after it is the number 0 and an `x`.
    (scanDigits 16 (text.drop 2)).or (scanDigits 8 text)
  else scanDigits 8 text

def scanInteger (base : Nat) (text : Bytes) : Option (Int × Bytes) :=
  let signed := scanSign (text.dropWhile isSpace)
  (scanNumeral base signed.2).map fun read =>
    (if signed.1 then -(read.1 : Int) else read.1, read.2)

/-- `strtoul(text, NULL, base)`: a negative number is negated as an `unsigned long`. -/
def strtoul (base : Nat) (text : Bytes) : Nat :=
  match scanInteger base text with
  | none => 0
  | some (number, _) =>
      if 2 ^ 64 ≤ number.natAbs then 2 ^ 64 - 1 else (number % 2 ^ 64).toNat

/-- `strtoul` where no declaration of it is in sight: the call returns an `int`, which is
then widened. -/
def strtoulImplicit (base : Nat) (text : Bytes) : Nat :=
  ((BitVec.ofNat 32 (strtoul base text)).signExtend 64).toNat

def strtol (base : Nat) (text : Bytes) : Int :=
  match scanInteger base text with
  | none => 0
  | some (number, _) => max (-2 ^ 63) (min (2 ^ 63 - 1) number)

def completeNumber (base : Nat) (text : Bytes) : Option Int :=
  match scanInteger base text with
  | some (number, []) => some number
  | _ => none

theorem completeNumber_scan (base : Nat) (text : Bytes) (number : Int)
    (complete : completeNumber base text = some number) :
    scanInteger base text = some (number, []) := by
  unfold completeNumber at complete
  split at complete
  · next read scanned => rw [scanned, Option.some.inj complete]
  · cases complete

section
variable (base : Nat) (text : Bytes) (number : Nat)

theorem strtoul_complete (complete : completeNumber base text = some (number : Int))
    (small : number < 2 ^ 64) : strtoul base text = number := by
  have scanned := completeNumber_scan base text number complete
  unfold strtoul
  rw [scanned]
  simp only [Int.natAbs_natCast]
  rw [if_neg (by omega)]
  omega

theorem strtol_complete (signed : Int) (complete : completeNumber base text = some signed) :
    strtol base text = max (-2 ^ 63) (min (2 ^ 63 - 1) signed) := by
  have scanned := completeNumber_scan base text signed complete
  unfold strtol
  rw [scanned]

theorem strtoulImplicit_complete (complete : completeNumber base text = some (number : Int))
    (small : number < 2 ^ 31) : strtoulImplicit base text = number := by
  have whole := strtoul_complete base text number complete (by omega)
  have positive : (BitVec.ofNat 32 number).msb = false := by
    rw [BitVec.msb_eq_false_iff_two_mul_lt, BitVec.toNat_ofNat]
    omega
  unfold strtoulImplicit
  rw [whole, BitVec.toNat_signExtend, positive]
  simp only [BitVec.toNat_setWidth, BitVec.toNat_ofNat, Bool.false_eq_true, if_false]
  omega

end

end SensorNode.IntegerText
