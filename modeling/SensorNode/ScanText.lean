import SensorNode.DecimalText

/-!
The `sscanf` conversions of the C standard that the daemons use, on the bytes
of a C string. A floating-point item is the longest prefix that is, or starts,
a valid subject: once an exponent marker, `0x`, `infi` or `nan(` has been read
the item must be completed, or the conversion fails. Decimal and hexadecimal
items denote exact numbers, rounded once to binary32.
-/

namespace SensorNode.ScanText

open LineStream DecimalText
open Float.Model (Format UnpackedFloat)

def isSpace (byte : UInt8) : Bool := byte == 32 || (decide (9 ≤ byte) && decide (byte ≤ 13))

def lower (byte : UInt8) : UInt8 := if 65 ≤ byte ∧ byte ≤ 90 then byte + 32 else byte

inductive FloatItem where
  | decimal (mantissa : Nat) (exponent : Int)
  | hexadecimal (mantissa : Nat) (exponent : Int)
  | infinity
  | nan
  deriving DecidableEq

def scanSign : Bytes → Bool × Bytes
  | 45 :: rest => (true, rest)
  | 43 :: rest => (false, rest)
  | text => (false, text)

/-- An exponent part introduced by the (lower case) marker, if there is one. -/
def scanExponent (marker : UInt8) : Bytes → Option (Int × Bytes)
  | [] => some (0, [])
  | byte :: tail =>
      if lower byte = marker then
        let digits := spanDigits (scanSign tail).2
        -- The marker has been read, so there is no going back to the item before it.
        if digits.1 = [] then none
        else if (scanSign tail).1 then some (-(digitsValue digits.1 : Int), digits.2)
        else some ((digitsValue digits.1 : Int), digits.2)
      else some (0, byte :: tail)

/-- The digits after a point, if there is one. -/
def scanPoint (digits : Bytes → Bytes × Bytes) : Bytes → Bytes × Bytes
  | 46 :: tail => digits tail
  | text => ([], text)

def scanDecimal (text : Bytes) : Option (FloatItem × Bytes) :=
  let whole := spanDigits text
  let fraction := scanPoint spanDigits whole.2
  if whole.1 ++ fraction.1 = [] then none
  else (scanExponent 101 fraction.2).map fun read =>
    (.decimal (digitsValue (whole.1 ++ fraction.1)) (read.1 - fraction.1.length), read.2)

def spanHex (text : Bytes) : Bytes × Bytes :=
  (text.takeWhile fun byte => (hexValue byte).isSome,
    text.dropWhile fun byte => (hexValue byte).isSome)

def hexDigitsValue (digits : Bytes) : Nat :=
  digits.foldl (fun total byte => 16 * total + (hexValue byte).getD 0) 0

def scanHexadecimal (text : Bytes) : Option (FloatItem × Bytes) :=
  let whole := spanHex text
  let fraction := scanPoint spanHex whole.2
  if whole.1 ++ fraction.1 = [] then none
  else (scanExponent 112 fraction.2).map fun read =>
    (.hexadecimal (hexDigitsValue (whole.1 ++ fraction.1)) (read.1 - 4 * fraction.1.length),
      read.2)

def scanWord (word text : Bytes) : Option Bytes :=
  if (text.take word.length).map lower = word then some (text.drop word.length) else none

def scanInfinity (text : Bytes) : Option (FloatItem × Bytes) :=
  match scanWord (ascii "inf") text with
  | none => none
  | some rest =>
      if rest.head?.map lower = some 105 then
        (scanWord (ascii "inity") rest).map fun tail => (.infinity, tail)
      else some (.infinity, rest)

def isNanChar (byte : UInt8) : Bool :=
  isDigit byte || (decide (97 ≤ lower byte) && decide (lower byte ≤ 122)) || byte == 95

def scanNan (text : Bytes) : Option (FloatItem × Bytes) :=
  match scanWord (ascii "nan") text with
  | none => none
  | some (40 :: tail) =>
      match tail.dropWhile isNanChar with
      | 41 :: rest => some (.nan, rest)
      | _ => none
  | some rest => some (.nan, rest)

def scanMagnitude (text : Bytes) : Option (FloatItem × Bytes) :=
  match text with
  | [] => none
  | first :: rest =>
      if lower first = 105 then scanInfinity text
      else if lower first = 110 then scanNan text
      else if first = 48 ∧ rest.head?.map lower = some 120 then scanHexadecimal rest.tail
      else scanDecimal text

def FloatItem.toFloat32 : FloatItem → Float32
  | .decimal mantissa exponent => .ofModel (Float32.Model.ofScientific mantissa exponent)
  | .hexadecimal mantissa exponent =>
      if mantissa = 0 then .ofBits 0
      else .ofModel (Float32.Model.pack
        (UnpackedFloat.round Format.binary32 .positive mantissa exponent))
  | .infinity => .ofBits 0x7F800000
  | .nan => .ofBits 0x7FC00000

/-- `%f`: leading white space, a sign and a magnitude. -/
def scanFloat (text : Bytes) : Option (Float32 × Bytes) :=
  let signed := scanSign (text.dropWhile isSpace)
  (scanMagnitude signed.2).map fun read =>
    (if signed.1 then -read.1.toFloat32 else read.1.toFloat32, read.2)

/-- `%<width>[^<stop>]`: at least one byte, at most `width`, none the stop byte. -/
def scanUntil (width : Nat) (stop : UInt8) (text : Bytes) : Option (Bytes × Bytes) :=
  let item := (text.take width).takeWhile fun byte => byte != stop
  if item = [] then none else some (item, text.drop item.length)

/-- `%<width>s`: white space skipped, then at least one byte of a word. -/
def scanToken (width : Nat) (text : Bytes) : Option (Bytes × Bytes) :=
  let start := text.dropWhile isSpace
  let item := (start.take width).takeWhile fun byte => !isSpace byte
  if item = [] then none else some (item, start.drop item.length)

theorem scanUntil_item (width : Nat) (stop : UInt8) (text item rest : Bytes)
    (scanned : scanUntil width stop text = some (item, rest)) :
    text = item ++ rest ∧ item.length ≤ width ∧ item ≠ [] ∧ stop ∉ item := by
  unfold scanUntil at scanned
  simp only at scanned
  split at scanned
  · cases scanned
  · next present =>
    cases scanned
    have taken : (text.take width).takeWhile (fun byte => byte != stop) <+: text :=
      (List.takeWhile_prefix _).trans (List.take_prefix width text)
    refine ⟨?_, ?_, present, ?_⟩
    · exact (List.prefix_iff_eq_append.mp taken).symm
    · exact (List.takeWhile_prefix _).length_le.trans (List.length_take_le width text)
    · intro member
      have kept := List.mem_takeWhile_imp member
      simp at kept

/-- An item that fits, in front of the stop byte, is read whole. -/
theorem scanUntil_written (width : Nat) (stop : UInt8) (item rest : Bytes) (present : item ≠ [])
    (short : item.length ≤ width) (free : stop ∉ item) :
    scanUntil width stop (item ++ stop :: rest) = some (item, stop :: rest) := by
  have kept := bne_of_notMem free
  have read : ((item ++ stop :: rest).take width).takeWhile (fun byte => byte != stop) = item := by
    rw [List.take_append, List.take_of_length_le short, List.takeWhile_append_of_pos kept]
    cases width - item.length with
    | zero => simp
    | succ more => simp
  unfold scanUntil
  simp only [read, if_neg present]
  rw [List.drop_append_of_le_length le_rfl, List.drop_length, List.nil_append]

theorem scanToken_starts (width : Nat) (first : UInt8) (rest : Bytes)
    (solid : isSpace first = false) :
    ∃ item tail, scanToken (width + 1) (first :: rest) = some (item, tail) ∧
      item <+: first :: rest := by
  have start : (first :: rest).dropWhile isSpace = first :: rest := by simp [solid]
  have item : ((first :: rest).take (width + 1)).takeWhile (fun byte => !isSpace byte) ≠ [] := by
    simp [solid]
  unfold scanToken
  simp only [start, if_neg item]
  exact ⟨_, _, rfl, (List.takeWhile_prefix _).trans (List.take_prefix _ _)⟩

theorem scanToken_word (width : Nat) (word : Bytes) (present : word ≠ [])
    (short : word.length ≤ width) (solid : ∀ byte ∈ word, isSpace byte = false) :
    scanToken width word = some (word, []) := by
  have start : word.dropWhile isSpace = word := by
    cases word with
    | nil => rfl
    | cons first tail => simp [solid first List.mem_cons_self]
  have item : word.takeWhile (fun byte => !isSpace byte) = word :=
    List.takeWhile_eq_self_iff.mpr fun byte member => by simp [solid byte member]
  unfold scanToken
  simp only [start, List.take_of_length_le short, item, if_neg present, List.drop_length]

end SensorNode.ScanText
