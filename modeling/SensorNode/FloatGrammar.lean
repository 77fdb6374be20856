import SensorNode.ScanText

/-!
The numbers `%f` reads, given by what they are made of instead of by how they
are scanned: digits around an optional point, an optional exponent, a base and
an optional sign. The scanner returns exactly these, each with the value it
denotes, and stops where nothing could continue the number.
-/

namespace SensorNode.FloatGrammar

open LineStream DecimalText ScanText

/-- The text does not go on with a byte of this kind. -/
def Stops (kind : UInt8 → Bool) (rest : Bytes) : Prop := ∀ byte ∈ rest.head?, kind byte = false

instance (kind : UInt8 → Bool) : (rest : Bytes) → Decidable (Stops kind rest)
  | [] => .isTrue nofun
  | byte :: _ => decidable_of_iff (kind byte = false)
      ⟨fun stops _ member => Option.some.inj member ▸ stops, fun stops => stops byte rfl⟩

theorem stops_dropWhile (kind : UInt8 → Bool) (text : Bytes) :
    Stops kind (text.dropWhile kind) := by
  intro byte member
  have headed := List.head?_dropWhile_not kind text
  rw [Option.mem_def.mp member] at headed
  simpa using headed

theorem takeWhile_stops (kind : UInt8 → Bool) (run rest : Bytes)
    (all : ∀ byte ∈ run, kind byte = true) (stops : Stops kind rest) :
    (run ++ rest).takeWhile kind = run ∧ (run ++ rest).dropWhile kind = rest := by
  rw [List.takeWhile_append_of_pos all, List.dropWhile_append_of_pos all]
  cases rest with
  | nil => simp
  | cons byte tail =>
      have other : kind byte = false := stops byte rfl
      simp [other]

theorem takeWhile_all (kind : UInt8 → Bool) (text : Bytes) :
    ∀ byte ∈ text.takeWhile kind, kind byte = true := fun _ => List.mem_takeWhile_imp

def isHex (byte : UInt8) : Bool := (hexValue byte).isSome

def isMarker (marker byte : UInt8) : Bool := lower byte == marker

def isPoint (byte : UInt8) : Bool := byte == 46

/-- A written sign; `some true` is the minus. -/
def signBytes : Option Bool → Bytes
  | none => []
  | some true => [45]
  | some false => [43]

def isSign (byte : UInt8) : Bool := byte == 45 || byte == 43

theorem scanSign_written (sign : Option Bool) (text : Bytes) (stops : Stops isSign text) :
    scanSign (signBytes sign ++ text) = (sign.getD false, text) := by
  cases sign with
  | none =>
      cases text with
      | nil => rfl
      | cons byte tail =>
          have other : isSign byte = false := stops byte rfl
          simp only [isSign, Bool.or_eq_false_iff, beq_eq_false_iff_ne] at other
          unfold scanSign signBytes
          split
          · next same => exact absurd (List.cons.inj same).1 other.1
          · next same => exact absurd (List.cons.inj same).1 other.2
          · rfl
  | some minus => cases minus <;> rfl

theorem scanSign_reads (text : Bytes) :
    ∃ sign : Option Bool, text = signBytes sign ++ (scanSign text).2 ∧
      (scanSign text).1 = sign.getD false := by
  unfold scanSign
  split
  · exact ⟨some true, rfl, rfl⟩
  · exact ⟨some false, rfl, rfl⟩
  · exact ⟨none, rfl, rfl⟩

/-! ## Exponents -/

structure Exponent (marker : UInt8) where
  letter : UInt8
  sign : Option Bool
  digits : Bytes
  marked : lower letter = marker
  decimal : ∀ byte ∈ digits, isDigit byte = true
  present : digits ≠ []

def Exponent.text {marker : UInt8} (exponent : Exponent marker) : Bytes :=
  exponent.letter :: (signBytes exponent.sign ++ exponent.digits)

def Exponent.value {marker : UInt8} (exponent : Exponent marker) : Int :=
  if exponent.sign.getD false then -(digitsValue exponent.digits : Int)
  else digitsValue exponent.digits

/-- What follows an exponent part, or the place where none is written. -/
def ExponentEnds {marker : UInt8} : Option (Exponent marker) → Bytes → Prop
  | none, rest => Stops (isMarker marker) rest
  | some _, rest => Stops isDigit rest

def exponentText {marker : UInt8} (exponent : Option (Exponent marker)) : Bytes :=
  exponent.elim [] Exponent.text

def exponentValue {marker : UInt8} (exponent : Option (Exponent marker)) : Int :=
  exponent.elim 0 Exponent.value

theorem digit_not_sign (byte : UInt8) (digit : isDigit byte = true) : isSign byte = false := by
  simp only [isSign, Bool.or_eq_false_iff, beq_eq_false_iff_ne]
  constructor <;> rintro rfl <;> exact absurd digit (by decide)

theorem scanExponent_written (marker : UInt8) (exponent : Option (Exponent marker)) (rest : Bytes)
    (ends : ExponentEnds exponent rest) :
    scanExponent marker (exponentText exponent ++ rest) = some (exponentValue exponent, rest) := by
  cases exponent with
  | none =>
      cases rest with
      | nil => rfl
      | cons byte tail =>
          have other : isMarker marker byte = false := ends byte rfl
          have differs : lower byte ≠ marker := by simpa [isMarker] using other
          simp [exponentText, exponentValue, scanExponent, differs]
  | some exponent =>
      obtain ⟨letter, sign, digits, marked, decimal, present⟩ := exponent
      have unsigned : Stops isSign (digits ++ rest) := by
        cases digits with
        | nil => exact absurd rfl present
        | cons digit others =>
            intro byte member
            cases member
            exact digit_not_sign digit (decimal digit List.mem_cons_self)
      have spanned := takeWhile_stops isDigit digits rest decimal ends
      have signed := scanSign_written sign (digits ++ rest) unsigned
      simp only [exponentText, Option.elim, Exponent.text, List.cons_append, List.append_assoc,
        scanExponent, marked, if_true, signed, spanDigits, spanned, if_neg present]
      cases sign with
      | none => rfl
      | some minus => cases minus <;> rfl

theorem scanExponent_reads (marker : UInt8) (text rest : Bytes) (value : Int)
    (scanned : scanExponent marker text = some (value, rest)) :
    ∃ exponent : Option (Exponent marker), text = exponentText exponent ++ rest ∧
      ExponentEnds exponent rest ∧ exponentValue exponent = value := by
  cases text with
  | nil =>
      cases scanned
      exact ⟨none, rfl, fun _ member => absurd member (by simp), rfl⟩
  | cons byte tail =>
      by_cases marked : lower byte = marker
      · obtain ⟨sign, written, negative⟩ := scanSign_reads tail
        have joined := List.takeWhile_append_dropWhile (p := isDigit) (l := (scanSign tail).2)
        simp only [scanExponent, marked, if_true, spanDigits, negative] at scanned
        by_cases missing : (scanSign tail).2.takeWhile isDigit = []
        · rw [if_pos missing] at scanned
          cases scanned
        · rw [if_neg missing] at scanned
          have found : ∀ exponent : Exponent marker, exponent.letter = byte →
              exponent.sign = sign → exponent.digits = (scanSign tail).2.takeWhile isDigit →
              rest = (scanSign tail).2.dropWhile isDigit →
              byte :: tail = exponentText (some exponent) ++ rest := by
            intro exponent letter same digits remaining
            simp only [exponentText, Option.elim, Exponent.text, letter, same, digits, remaining,
              List.cons_append, List.append_assoc, joined]
            rw [← written]
          refine ⟨some ⟨byte, sign, _, marked, takeWhile_all isDigit (scanSign tail).2, missing⟩,
            found _ rfl rfl rfl ?_, ?_, ?_⟩
          · split at scanned <;> cases scanned <;> rfl
          · split at scanned <;> cases scanned <;> exact stops_dropWhile isDigit _
          · simp only [exponentValue, Option.elim, Exponent.value]
            split at scanned <;> cases scanned
            · next minus => rw [if_pos minus]
            · next plus => rw [if_neg plus]
      · simp only [scanExponent, if_neg marked, Option.some.injEq, Prod.mk.injEq] at scanned
        obtain ⟨rfl, rfl⟩ := scanned
        refine ⟨none, rfl, ?_, rfl⟩
        intro other member
        cases member
        simpa [isMarker] using marked

/-! ## Digits, point and exponent in one base -/

/-- What may stand in a numeral of one base: neither the point nor an exponent
letter is one of its digits. -/
structure Base where
  digit : UInt8 → Bool
  marker : UInt8
  point : digit 46 = false
  letters : ∀ byte, isMarker marker byte = true → digit byte = false ∧ isPoint byte = false

theorem marker_letter (marker byte : UInt8) (marked : isMarker marker byte = true) :
    byte = marker ∨ byte = marker - 32 := by
  have same : lower byte = marker := by simpa [isMarker] using marked
  unfold lower at same
  split at same
  · right
    rw [← same, UInt8.add_sub_cancel]
  · exact Or.inl same

def decimalBase : Base where
  digit := isDigit
  marker := 101
  point := by decide
  letters := by
    intro byte marked
    rcases marker_letter 101 byte marked with rfl | rfl <;> decide

def hexadecimalBase : Base where
  digit := isHex
  marker := 112
  point := by decide
  letters := by
    intro byte marked
    rcases marker_letter 112 byte marked with rfl | rfl <;> decide

structure Numeral (base : Base) where
  whole : Bytes
  fraction : Option Bytes
  exponent : Option (Exponent base.marker)
  wholeDigits : ∀ byte ∈ whole, base.digit byte = true
  fractionDigits : ∀ byte ∈ fraction.getD [], base.digit byte = true
  present : whole ++ fraction.getD [] ≠ []

def pointText (fraction : Option Bytes) : Bytes := fraction.elim [] fun digits => 46 :: digits

def Numeral.text {base : Base} (numeral : Numeral base) : Bytes :=
  numeral.whole ++ (pointText numeral.fraction ++ exponentText numeral.exponent)

/-- Nothing that follows could still belong to the numeral. -/
def Numeral.Ends {base : Base} (numeral : Numeral base) (rest : Bytes) : Prop :=
  ExponentEnds numeral.exponent rest ∧
    (numeral.exponent = none → Stops base.digit rest ∧
      (numeral.fraction = none → Stops isPoint rest))

/-- The part `scanDecimal` and `scanHexadecimal` share: the digits on both sides
of the point and the exponent. -/
def scanNumeral (base : Base) (text : Bytes) : Option ((Bytes × Bytes × Int) × Bytes) :=
  let fraction := scanPoint (fun tail => (tail.takeWhile base.digit, tail.dropWhile base.digit))
    (text.dropWhile base.digit)
  if text.takeWhile base.digit ++ fraction.1 = [] then none
  else (scanExponent base.marker fraction.2).map fun read =>
    ((text.takeWhile base.digit, fraction.1, read.1), read.2)

theorem scanDecimal_numeral (text : Bytes) :
    scanDecimal text = (scanNumeral decimalBase text).map fun read =>
      (.decimal (digitsValue (read.1.1 ++ read.1.2.1)) (read.1.2.2 - read.1.2.1.length),
        read.2) := by
  unfold scanDecimal scanNumeral
  simp only
  rw [apply_ite (Option.map _), Option.map_none, Option.map_map]
  rfl

theorem scanHexadecimal_numeral (text : Bytes) :
    scanHexadecimal text = (scanNumeral hexadecimalBase text).map fun read =>
      (.hexadecimal (hexDigitsValue (read.1.1 ++ read.1.2.1))
        (read.1.2.2 - 4 * read.1.2.1.length), read.2) := by
  unfold scanHexadecimal scanNumeral
  simp only
  rw [apply_ite (Option.map _), Option.map_none, Option.map_map]
  rfl

theorem scanPoint_stops (digits : Bytes → Bytes × Bytes) (text : Bytes)
    (stops : Stops isPoint text) : scanPoint digits text = ([], text) := by
  unfold scanPoint
  split
  · next tail => exact absurd (stops 46 rfl) (by decide)
  · rfl

theorem exponentText_stops {base : Base} (numeral : Numeral base) (rest : Bytes)
    (ends : numeral.Ends rest) :
    Stops base.digit (exponentText numeral.exponent ++ rest) ∧
      (numeral.fraction = none → Stops isPoint (exponentText numeral.exponent ++ rest)) := by
  cases written : numeral.exponent with
  | none => exact ends.2 written
  | some exponent =>
      have letter := base.letters exponent.letter (by simp [isMarker, exponent.marked])
      constructor
      · intro byte member
        cases member
        exact letter.1
      · intro _ byte member
        cases member
        exact letter.2

theorem scanNumeral_written {base : Base} (numeral : Numeral base) (rest : Bytes)
    (ends : numeral.Ends rest) :
    scanNumeral base (numeral.text ++ rest) =
      some ((numeral.whole, numeral.fraction.getD [], exponentValue numeral.exponent), rest) := by
  obtain ⟨stopsDigit, stopsPoint⟩ := exponentText_stops numeral rest ends
  have afterPoint : Stops base.digit
      (pointText numeral.fraction ++ (exponentText numeral.exponent ++ rest)) := by
    cases written : numeral.fraction with
    | none => exact stopsDigit
    | some digits =>
        intro byte member
        cases member
        exact base.point
  have whole := takeWhile_stops base.digit numeral.whole _ numeral.wholeDigits afterPoint
  have fraction : scanPoint
      (fun tail => (tail.takeWhile base.digit, tail.dropWhile base.digit))
      (pointText numeral.fraction ++ (exponentText numeral.exponent ++ rest)) =
      (numeral.fraction.getD [], exponentText numeral.exponent ++ rest) := by
    cases written : numeral.fraction with
    | none => exact scanPoint_stops _ _ (stopsPoint written)
    | some digits =>
        have all := numeral.fractionDigits
        rw [written] at all
        have run := takeWhile_stops base.digit digits _ all stopsDigit
        exact Prod.ext run.1 run.2
  have exponent := scanExponent_written base.marker numeral.exponent rest ends.1
  simp only [scanNumeral, Numeral.text, List.append_assoc, whole, fraction,
    if_neg numeral.present, exponent, Option.map_some]

theorem scanNumeral_reads (base : Base) (text whole fraction rest : Bytes) (value : Int)
    (scanned : scanNumeral base text = some ((whole, fraction, value), rest)) :
    ∃ numeral : Numeral base, text = numeral.text ++ rest ∧ numeral.Ends rest ∧
      numeral.whole = whole ∧ numeral.fraction.getD [] = fraction ∧
      exponentValue numeral.exponent = value := by
  have joined := List.takeWhile_append_dropWhile (p := base.digit) (l := text)
  have stops := stops_dropWhile base.digit text
  have all := takeWhile_all base.digit text
  unfold scanNumeral at scanned
  generalize text.takeWhile base.digit = front at scanned joined all
  generalize text.dropWhile base.digit = back at scanned joined stops
  simp only at scanned
  by_cases empty : front ++ (scanPoint (fun tail => (tail.takeWhile base.digit,
      tail.dropWhile base.digit)) back).1 = []
  · rw [if_pos empty] at scanned
    cases scanned
  · rw [if_neg empty] at scanned
    obtain ⟨⟨read, remaining⟩, found, same⟩ := Option.map_eq_some_iff.mp scanned
    obtain ⟨⟨rfl, rfl, rfl⟩, rfl⟩ : (front = whole ∧ (scanPoint (fun tail =>
        (tail.takeWhile base.digit, tail.dropWhile base.digit)) back).1 = fraction ∧
        read = value) ∧ remaining = rest := by simpa using same
    obtain ⟨exponent, written, ends, denoted⟩ := scanExponent_reads _ _ _ _ found
    -- With a point the fraction ends at the first byte that is no digit; without one the
    -- whole part does.
    by_cases point : ∃ tail, back = 46 :: tail
    · obtain ⟨tail, rfl⟩ := point
      have split := List.takeWhile_append_dropWhile (p := base.digit) (l := tail)
      have noDigit := stops_dropWhile base.digit tail
      simp only [scanPoint] at written empty
      refine ⟨⟨front, some (tail.takeWhile base.digit), exponent, all,
        takeWhile_all base.digit tail, empty⟩, ?_, ⟨ends, ?_⟩, rfl, rfl, denoted⟩
      · rw [← joined]
        simp only [Numeral.text, pointText, Option.elim, List.append_assoc, List.cons_append]
        rw [← written, split]
      · rintro rfl
        rw [show remaining = tail.dropWhile base.digit from written.symm]
        exact ⟨noDigit, nofun⟩
    · have noPoint : Stops isPoint back := by
        intro byte member
        cases back with
        | nil => cases member
        | cons first tail =>
            cases member
            have other : byte ≠ 46 := fun same => point ⟨tail, by rw [same]⟩
            simpa [isPoint] using other
      rw [scanPoint_stops _ _ noPoint] at written empty ⊢
      refine ⟨⟨front, none, exponent, all, nofun, empty⟩, ?_, ⟨ends, ?_⟩, rfl, rfl, denoted⟩
      · rw [← joined, show back = exponentText exponent ++ remaining from written]
        simp [Numeral.text, pointText]
      · rintro rfl
        rw [show remaining = back from written.symm]
        exact ⟨stops, fun _ => noPoint⟩

theorem numeral_head {base : Base} (numeral : Numeral base) :
    ∃ first tail, numeral.text = first :: tail ∧ (base.digit first = true ∨ first = 46) := by
  obtain ⟨whole, fraction, exponent, wholeDigits, fractionDigits, present⟩ := numeral
  cases whole with
  | cons first tail => exact ⟨first, _, rfl, Or.inl (wholeDigits first List.mem_cons_self)⟩
  | nil =>
      cases fraction with
      | none => exact absurd rfl present
      | some digits => exact ⟨46, _, rfl, Or.inr rfl⟩

/-! ## Numbers -/

def isX (byte : UInt8) : Bool := lower byte == 120

inductive Magnitude where
  | decimal (numeral : Numeral decimalBase)
  | hexadecimal (letter : UInt8) (marked : isX letter = true) (numeral : Numeral hexadecimalBase)

def Magnitude.text : Magnitude → Bytes
  | .decimal numeral => numeral.text
  | .hexadecimal letter _ numeral => 48 :: letter :: numeral.text

/-- A lone zero before an `x` would start a hexadecimal number. -/
def Magnitude.Ends : Magnitude → Bytes → Prop
  | .decimal numeral, rest => numeral.Ends rest ∧ (numeral.text = [48] → Stops isX rest)
  | .hexadecimal _ _ numeral, rest => numeral.Ends rest

def Magnitude.item : Magnitude → FloatItem
  | .decimal numeral =>
      .decimal (digitsValue (numeral.whole ++ numeral.fraction.getD []))
        (exponentValue numeral.exponent - (numeral.fraction.getD []).length)
  | .hexadecimal _ _ numeral =>
      .hexadecimal (hexDigitsValue (numeral.whole ++ numeral.fraction.getD []))
        (exponentValue numeral.exponent - 4 * (numeral.fraction.getD []).length)

structure Number where
  sign : Option Bool
  magnitude : Magnitude

def Number.text (number : Number) : Bytes := signBytes number.sign ++ number.magnitude.text

/-- The value the number denotes, rounded to binary32. -/
def Number.value (number : Number) : Float32 :=
  if number.sign.getD false then -number.magnitude.item.toFloat32
  else number.magnitude.item.toFloat32

theorem digit_plain (byte : UInt8) (digit : isDigit byte = true) :
    lower byte = byte ∧ isX byte = false ∧ isSpace byte = false := by
  simp only [isDigit, Bool.and_eq_true, decide_eq_true_eq, UInt8.le_iff_toNat_le] at digit
  obtain ⟨low, high⟩ := digit
  have same : lower byte = byte := by
    refine if_neg fun upper => ?_
    have reached : 65 ≤ byte.toNat := UInt8.le_iff_toNat_le.mp upper.1
    have bound : byte.toNat ≤ 57 := high
    omega
  refine ⟨same, ?_, ?_⟩
  · simp only [isX, same, beq_eq_false_iff_ne]
    rintro rfl
    exact absurd high (by decide)
  · have bound : 48 ≤ byte.toNat := low
    simp only [isSpace, Bool.or_eq_false_iff, Bool.and_eq_false_iff, beq_eq_false_iff_ne,
      decide_eq_false_iff_not, UInt8.le_iff_toNat_le]
    refine ⟨?_, Or.inr fun small => ?_⟩
    · rintro rfl
      exact absurd low (by decide)
    · have limit : byte.toNat ≤ 13 := small
      omega

theorem signBytes_sign (sign : Option Bool) : ∀ byte ∈ signBytes sign, isSign byte = true := by
  apply List.all_eq_true.mp
  match sign with
  | none => rfl
  | some true => rfl
  | some false => rfl

theorem numeral_bytes {base : Base} (numeral : Numeral base) :
    ∀ byte ∈ numeral.text, base.digit byte = true ∨ isPoint byte = true ∨
      isMarker base.marker byte = true ∨ isSign byte = true ∨ isDigit byte = true := by
  intro byte member
  rcases List.mem_append.mp member with whole | member
  · exact Or.inl (numeral.wholeDigits byte whole)
  · rcases List.mem_append.mp member with point | member
    · cases written : numeral.fraction with
      | none => simp [written, pointText] at point
      | some digits =>
          have all := numeral.fractionDigits
          rw [written] at point all
          rcases List.mem_cons.mp point with rfl | digit
          · exact Or.inr (Or.inl rfl)
          · exact Or.inl (all byte digit)
    · cases written : numeral.exponent with
      | none => simp [written, exponentText] at member
      | some exponent =>
          rw [written] at member
          rcases List.mem_cons.mp member with rfl | member
          · exact Or.inr (Or.inr (Or.inl (by simp [isMarker, exponent.marked])))
          · rcases List.mem_append.mp member with sign | digit
            · exact Or.inr (Or.inr (Or.inr (Or.inl (signBytes_sign _ byte sign))))
            · exact Or.inr (Or.inr (Or.inr (Or.inr (exponent.decimal byte digit))))

theorem decimal_text_not_x (numeral : Numeral decimalBase) :
    ∀ byte ∈ numeral.text, isX byte = false := by
  intro byte member
  rcases numeral_bytes numeral byte member with digit | point | letter | sign | digit
  · exact (digit_plain byte digit).2.1
  · have same : byte = 46 := by simpa [isPoint] using point
    subst same
    decide
  · rcases marker_letter 101 byte letter with rfl | rfl <;> decide
  · simp only [isSign, Bool.or_eq_true, beq_iff_eq] at sign
    rcases sign with rfl | rfl <;> decide
  · exact (digit_plain byte digit).2.1

/-- How a magnitude starts: with a digit or a point. -/
theorem magnitude_head (magnitude : Magnitude) :
    ∃ first tail, magnitude.text = first :: tail ∧ (isDigit first = true ∨ first = 46) := by
  cases magnitude with
  | decimal numeral => exact numeral_head numeral
  | hexadecimal letter marked numeral => exact ⟨48, _, rfl, Or.inl (by decide)⟩

theorem head_plain (first : UInt8) (starts : isDigit first = true ∨ first = 46) :
    lower first = first ∧ lower first ≠ 105 ∧ lower first ≠ 110 ∧ isSign first = false ∧
      isSpace first = false := by
  rcases starts with digit | rfl
  · obtain ⟨same, _, plain⟩ := digit_plain first digit
    rw [same]
    refine ⟨rfl, ?_, ?_, digit_not_sign first digit, plain⟩ <;> rintro rfl <;>
      exact absurd digit (by decide)
  · decide

theorem scanMagnitude_written (magnitude : Magnitude) (rest : Bytes)
    (ends : magnitude.Ends rest) :
    scanMagnitude (magnitude.text ++ rest) = some (magnitude.item, rest) := by
  cases magnitude with
  | hexadecimal letter marked numeral =>
      have letterIs : lower letter = 120 := by simpa [isX] using marked
      have scanned := scanNumeral_written numeral rest ends
      simp only [Magnitude.text, List.cons_append, scanMagnitude, List.head?_cons,
        Option.map_some, letterIs, and_self, if_true, List.tail_cons, scanHexadecimal_numeral,
        scanned]
      rfl
  | decimal numeral =>
      have scanned := scanNumeral_written numeral rest ends.1
      obtain ⟨first, tail, written, starts⟩ := numeral_head numeral
      obtain ⟨_, notI, notN, _, _⟩ := head_plain first starts
      have noHex : ¬ (first = 48 ∧ (tail ++ rest).head?.map lower = some 120) := by
        rintro ⟨rfl, second⟩
        cases tail with
        | nil =>
            obtain ⟨byte, head, same⟩ := Option.map_eq_some_iff.mp second
            have other := ends.2 written byte head
            simp [isX, same] at other
        | cons byte others =>
            have other := decimal_text_not_x numeral byte (by simp [written])
            have same : lower byte = 120 := by simpa using second
            simp [isX, same] at other
      have whole : scanDecimal (numeral.text ++ rest) =
          some (Magnitude.item (.decimal numeral), rest) := by
        rw [scanDecimal_numeral, scanned]
        rfl
      rw [written, List.cons_append] at whole
      simp only [Magnitude.text, written, List.cons_append, scanMagnitude, if_neg notI,
        if_neg notN, if_neg noHex]
      exact whole

theorem scanInfinity_item (text rest : Bytes) (item : FloatItem)
    (scanned : scanInfinity text = some (item, rest)) : item = .infinity := by
  unfold scanInfinity at scanned
  split at scanned
  · cases scanned
  · split at scanned
    · obtain ⟨tail, _, same⟩ := Option.map_eq_some_iff.mp scanned
      cases same
      rfl
    · cases scanned
      rfl

theorem scanNan_item (text rest : Bytes) (item : FloatItem)
    (scanned : scanNan text = some (item, rest)) : item = .nan := by
  unfold scanNan at scanned
  split at scanned
  · cases scanned
  · split at scanned <;> cases scanned
    rfl
  · cases scanned
    rfl

theorem scanMagnitude_reads (text rest : Bytes) (item : FloatItem)
    (scanned : scanMagnitude text = some (item, rest)) :
    item = .infinity ∨ item = .nan ∨
      ∃ magnitude : Magnitude, text = magnitude.text ++ rest ∧ magnitude.Ends rest ∧
        magnitude.item = item := by
  cases text with
  | nil => cases scanned
  | cons first tail =>
      simp only [scanMagnitude] at scanned
      split at scanned
      · exact Or.inl (scanInfinity_item _ _ _ scanned)
      · split at scanned
        · exact Or.inr (Or.inl (scanNan_item _ _ _ scanned))
        · refine Or.inr (Or.inr ?_)
          split at scanned
          · next hex =>
            obtain ⟨rfl, second⟩ := hex
            obtain ⟨letter, head, marked⟩ := Option.map_eq_some_iff.mp second
            obtain ⟨others, rfl⟩ : ∃ others, tail = letter :: others := by
              cases tail with
              | nil => cases head
              | cons byte others => exact ⟨others, by cases head; rfl⟩
            rw [List.tail_cons, scanHexadecimal_numeral] at scanned
            obtain ⟨⟨⟨whole, fraction, value⟩, remaining⟩, found, same⟩ :=
              Option.map_eq_some_iff.mp scanned
            cases same
            obtain ⟨numeral, written, ends, rfl, rfl, rfl⟩ := scanNumeral_reads _ _ _ _ _ _ found
            exact ⟨.hexadecimal letter (by simp [isX, marked]) numeral, by rw [written]; rfl, ends,
              rfl⟩
          · next noHex =>
            rw [scanDecimal_numeral] at scanned
            obtain ⟨⟨⟨whole, fraction, value⟩, remaining⟩, found, same⟩ :=
              Option.map_eq_some_iff.mp scanned
            cases same
            obtain ⟨numeral, written, ends, rfl, rfl, rfl⟩ := scanNumeral_reads _ _ _ _ _ _ found
            refine ⟨.decimal numeral, written, ⟨ends, fun lone byte member => ?_⟩, rfl⟩
            rw [lone] at written
            cases written
            by_contra marked
            apply noHex
            refine ⟨rfl, Option.map_eq_some_iff.mpr ⟨byte, member, ?_⟩⟩
            simpa [isX] using marked

theorem infinite_item (negative : Bool) (item : FloatItem)
    (infinite : item = .infinity ∨ item = .nan) :
    (if negative then -item.toFloat32 else item.toFloat32).isFinite = false := by
  rcases infinite with rfl | rfl <;> cases negative <;> decide +kernel

/-- A number starts with a sign, a digit or the point, so white space ends before it. -/
theorem number_noSpace (number : Number) (rest : Bytes) :
    Stops isSpace (number.text ++ rest) := by
  obtain ⟨first, tail, written, starts⟩ := magnitude_head number.magnitude
  obtain ⟨_, _, _, _, notSpace⟩ := head_plain first starts
  intro byte member
  match signIs : number.sign with
  | none =>
      rw [Number.text, signIs, written] at member
      cases member
      exact notSpace
  | some true =>
      rw [Number.text, signIs] at member
      cases member
      decide
  | some false =>
      rw [Number.text, signIs] at member
      cases member
      decide

theorem magnitude_noSign (magnitude : Magnitude) (rest : Bytes) :
    Stops isSign (magnitude.text ++ rest) := by
  obtain ⟨first, tail, written, starts⟩ := magnitude_head magnitude
  obtain ⟨_, _, _, notSign, _⟩ := head_plain first starts
  intro byte member
  rw [written] at member
  cases member
  exact notSign

/-- `%f` reads a finite value exactly where a number stands: after white space,
and before text that could not continue it. -/
theorem scanFloat_iff (text rest : Bytes) (value : Float32) (finite : value.isFinite = true) :
    scanFloat text = some (value, rest) ↔
      ∃ (spaces : Bytes) (number : Number), text = spaces ++ (number.text ++ rest) ∧
        (∀ byte ∈ spaces, isSpace byte = true) ∧ number.magnitude.Ends rest ∧
        number.value = value := by
  constructor
  · intro scanned
    obtain ⟨⟨item, remaining⟩, found, same⟩ := Option.map_eq_some_iff.mp scanned
    obtain ⟨valueIs, rfl⟩ := Prod.mk.inj same
    obtain ⟨sign, written, negative⟩ := scanSign_reads (text.dropWhile isSpace)
    have notInfinite (infinite : item = .infinity ∨ item = .nan) : False := by
      rw [← valueIs, infinite_item _ item infinite] at finite
      cases finite
    rcases scanMagnitude_reads _ _ _ found with infinity | nan | ⟨magnitude, body, ends, denoted⟩
    · exact (notInfinite (Or.inl infinity)).elim
    · exact (notInfinite (Or.inr nan)).elim
    · refine ⟨text.takeWhile isSpace, ⟨sign, magnitude⟩, ?_, takeWhile_all isSpace text, ends, ?_⟩
      · have joined := List.takeWhile_append_dropWhile (p := isSpace) (l := text)
        rw [written, body] at joined
        simpa [Number.text] using joined.symm
      · rw [Number.value, denoted, ← negative]
        exact valueIs
  · rintro ⟨spaces, number, rfl, white, ends, rfl⟩
    have skipped := (takeWhile_stops isSpace spaces _ white (number_noSpace number rest)).2
    have signed := scanSign_written number.sign _ (magnitude_noSign number.magnitude rest)
    have read := scanMagnitude_written number.magnitude rest ends
    rw [Number.text, List.append_assoc] at skipped
    simp only [scanFloat, Number.text, List.append_assoc, skipped, signed, read, Option.map_some]
    rfl

end SensorNode.FloatGrammar
