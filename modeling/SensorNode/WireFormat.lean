import SensorNode.JsonText
import SensorNode.ReadingStore
import SensorNode.FloatGrammar
import SensorNode.DoubleText
import SensorNode.PressureCompensation

/-!
What `socket_listener` takes for a reading, over all datagrams, and what the
sensor clients send. The pattern `%63[^:]:%f` is not anchored: white space may
stand before the number and anything that does not continue it after; a NUL
ends the text, and the number may be hexadecimal. What the clients build is
always the plain `name:value`.
-/

namespace SensorNode.WireFormat

open LineStream DecimalText ScanText ReadingStore FloatGrammar DoubleText
open Float.Model.UnpackedFloat (Sign)

structure Named (name : Bytes) : Prop where
  present : name ≠ []
  short : name.length ≤ 63
  noColon : 58 ∉ name
  noNul : nul ∉ name

instance (name : Bytes) : Decidable (Named name) :=
  decidable_of_iff (name ≠ [] ∧ name.length ≤ 63 ∧ 58 ∉ name ∧ nul ∉ name)
    ⟨fun ⟨a, b, c, d⟩ => ⟨a, b, c, d⟩, fun ⟨a, b, c, d⟩ => ⟨a, b, c, d⟩⟩

/-- The bytes before the first NUL start with `name:value`, white space allowed
before the value and nothing after it that would continue it. -/
structure Carries (datagram name : Bytes) (number : Number) : Prop where
  named : Named name
  starts : ∃ spaces rest, cstring datagram = name ++ 58 :: (spaces ++ (number.text ++ rest)) ∧
    (∀ byte ∈ spaces, isSpace byte = true) ∧ number.magnitude.Ends rest

/-- The whole datagram is `name:value` with a decimal value. -/
structure Plain (datagram name : Bytes) (number : Number) : Prop where
  named : Named name
  whole : datagram = name ++ 58 :: number.text
  decimal : ∃ numeral, number.magnitude = .decimal numeral

/-! ## socket_listener -/

theorem scanReading_iff (buffer name : Bytes) (value : Float32) (finite : value.isFinite = true) :
    scanReading buffer = some (name, value) ↔
      ∃ number, Carries buffer name number ∧ number.value = value := by
  constructor
  · intro scanned
    obtain ⟨short, present, noNul, noColon⟩ := scanReading_name buffer name value scanned
    unfold scanReading at scanned
    split at scanned
    · next item text found =>
      obtain ⟨⟨read, rest⟩, floated, same⟩ := Option.map_eq_some_iff.mp scanned
      cases same
      obtain ⟨split, _⟩ := scanUntil_item 63 58 _ _ _ found
      obtain ⟨spaces, number, written, white, ends, denoted⟩ :=
        (scanFloat_iff text rest read finite).mp floated
      exact ⟨number, ⟨⟨present, short, noColon, noNul⟩, spaces, rest, by rw [split, written],
        white, ends⟩, denoted⟩
    · cases scanned
  · rintro ⟨number, ⟨named, spaces, rest, written, white, ends⟩, denoted⟩
    have floated := (scanFloat_iff _ rest value finite).mpr
      ⟨spaces, number, rfl, white, ends, denoted⟩
    unfold scanReading
    rw [written, scanUntil_written 63 58 name _ named.present named.short named.noColon]
    simp only [floated, Option.map_some]

theorem parseDatagram_iff (datagram name : Bytes) (value : Float32)
    (short : datagram.length ≤ 1023) :
    parseDatagram datagram = some (name, value) ↔
      ∃ number, Carries datagram name number ∧ number.value = value ∧
        value.isFinite = true := by
  have whole : datagram.take (bufferSize - 1) = datagram := List.take_of_length_le short
  unfold parseDatagram
  rw [whole]
  constructor
  · intro parsed
    split at parsed
    · cases parsed
    · obtain ⟨scanned, finite⟩ := Option.filter_eq_some_iff.mp parsed
      obtain ⟨number, carries, denoted⟩ := (scanReading_iff datagram name value finite).mp scanned
      exact ⟨number, carries, denoted, finite⟩
  · rintro ⟨number, carries, denoted, finite⟩
    have filled : datagram ≠ [] := by
      rintro rfl
      obtain ⟨spaces, rest, written, _⟩ := carries.starts
      have nothing := congrArg List.length written
      simp [cstring] at nothing
    rw [if_neg filled]
    exact Option.filter_eq_some_iff.mpr
      ⟨(scanReading_iff datagram name value finite).mpr ⟨number, carries, denoted⟩, finite⟩

theorem socketListener_iff (store : DataStore) (datagram : Bytes) (now : Int64)
    (short : datagram.length ≤ 1023) (room : store.count < maxSensors) (entry : SensorData) :
    (socketListener store datagram now).data = store.data ++ [entry] ↔
      entry.timestamp = now ∧ ∃ number, Carries datagram entry.sensorName.bytes number ∧
        number.value = entry.value ∧ entry.value.isFinite = true := by
  have inside : store.data.length < maxSensors := room
  rw [← parseDatagram_iff datagram entry.sensorName.bytes entry.value short]
  unfold socketListener
  constructor
  · intro appended
    cases parsed : parseDatagram datagram with
    | none => simp [parsed] at appended
    | some reading =>
        simp only [parsed, appendReading, DataStore.push_data, if_pos inside,
          List.append_cancel_left_eq, List.cons.injEq, and_true] at appended
        obtain ⟨name, value⟩ := reading
        obtain ⟨number, carries, _⟩ := (parseDatagram_iff datagram name value short).mp parsed
        have copied : (SensorName.copy name).bytes = name := by
          change (cstring name).take 63 = name
          rw [cstring_self name carries.named.noNul, List.take_of_length_le carries.named.short]
        subst entry
        exact ⟨rfl, by rw [copied]⟩
  · rintro ⟨rfl, parsed⟩
    have copied : SensorName.copy entry.sensorName.bytes = entry.sensorName := by
      obtain ⟨bytes, short, noNul⟩ := entry.sensorName
      show SensorName.mk _ _ _ = _
      simp only [cstring_self bytes noNul, List.take_of_length_le short]
    simp only [parsed, appendReading, DataStore.push_data, if_pos inside, copied]

theorem socketListener_appends (store : DataStore) (datagram : Bytes) (now : Int64) :
    (socketListener store datagram now).data = store.data ∨
      ∃ entry, (socketListener store datagram now).data = store.data ++ [entry] := by
  unfold socketListener
  cases parseDatagram datagram with
  | none => exact Or.inl rfl
  | some reading =>
      simp only [appendReading, DataStore.push_data]
      split
      · exact Or.inr ⟨_, rfl⟩
      · exact Or.inl rfl

/-! ## The clients' send_value -/

/-- `len = snprintf(buf, 128, "%s:%.2f", name, value)` and a `sendto` of `len`
bytes; none when that reads past the text the buffer holds. -/
def sendValue (name value : Bytes) : Option Bytes :=
  if (name ++ 58 :: value).length < 128 then some (name ++ 58 :: value) else none

/-- The sensors whose clients pass a `float`: bmp180-client, htu21d-client and
dht11-client. -/
def floatSensors : List Bytes :=
  [ascii "bmp180_temp", ascii "bmp180_pressure_pa", ascii "htu21d_temp", ascii "htu21d_rh",
    ascii "dht11_temp", ascii "dht11_rh"]

/-- What gy63-client sends of one reading: `pressure_pa / 100.0` and `temp_c`,
both doubles. -/
def gy63Messages (reading : PressureCompensation.Reading) : List (Option Bytes) :=
  [sendValue (ascii "gy63_press_hpa") (printDouble2 (hundredths reading.pressurePa)),
    sendValue (ascii "gy63_temp") (printDouble2 (hundredths reading.temp))]

def fixedNumeral (total : Nat) : Numeral decimalBase where
  whole := decimal (total / 100)
  fraction := some [digitByte (total / 10 % 10), digitByte (total % 10)]
  exponent := none
  wholeDigits := decimal_digits (total / 100)
  fractionDigits := by
    intro byte member
    simp only [Option.getD_some, List.mem_cons, List.not_mem_nil, or_false] at member
    rcases member with rfl | rfl <;>
      exact digitByte_isDigit _ (Nat.mod_lt _ (by decide))
  present := by simp

def fixedNumber (sign : Sign) (total : Nat) : Number where
  sign := match sign with
    | .negative => some true
    | .positive => none
  magnitude := .decimal (fixedNumeral total)

theorem fixedNumber_text (sign : Sign) (total : Nat) :
    (fixedNumber sign total).text = signText sign ++ fixed2 total := by
  have body : (fixedNumeral total).text = fixed2 total := by
    simp only [Numeral.text, fixedNumeral, fixed2, pointText, exponentText, Option.elim,
      List.append_nil, List.append_assoc]
    rfl
  cases sign <;> simp only [Number.text, fixedNumber, Magnitude.text, body] <;> rfl

theorem fixedNumber_item (sign : Sign) (total : Nat) :
    (fixedNumber sign total).magnitude.item = .decimal total (-2) := by
  have digits := JsonText.fixed2_value total
  simp only [fixedNumber, Magnitude.item, fixedNumeral, Option.getD_some, digits, exponentValue,
    Option.elim]
  rfl

theorem sendValue_plain (name value : Bytes) (named : Named name) (sign : Sign) (total : Nat)
    (written : value = signText sign ++ fixed2 total) (fits : name.length + value.length < 127) :
    ∃ message, sendValue name value = some message ∧
      Plain message name (fixedNumber sign total) := by
  have room : (name ++ 58 :: value).length < 128 := by
    rw [List.length_append, List.length_cons]
    omega
  refine ⟨_, if_pos room, named, ?_, _, rfl⟩
  rw [written, fixedNumber_text]

theorem printFloat2_written (value : Float32) (finite : value.isFinite = true) :
    ∃ sign total, printFloat2 value = signText sign ++ fixed2 total ∧
      floatHundredths value = some (sign.apply total) := by
  unfold printFloat2 floatHundredths
  unfold Float32.isFinite Float32.Model.isFinite at finite
  cases unpacked : value.toModel.unpack with
  | infinity sign => simp [unpacked, Float.Model.UnpackedFloat.isFinite] at finite
  | notANumber => simp [unpacked, Float.Model.UnpackedFloat.isFinite] at finite
  | zero sign => exact ⟨sign, 0, rfl, by cases sign <;> rfl⟩
  | finite sign mantissa exponent positive => exact ⟨sign, _, rfl, rfl⟩

theorem float_message (name : Bytes) (sensor : name ∈ floatSensors) (value : Float32)
    (finite : value.isFinite = true) :
    ∃ message sign total, sendValue name (printFloat2 value) = some message ∧
      Plain message name (fixedNumber sign total) ∧
      floatHundredths value = some (sign.apply total) := by
  obtain ⟨sign, total, written, denoted⟩ := printFloat2_written value finite
  have names : ∀ name ∈ floatSensors, Named name ∧ name.length ≤ 18 := by decide
  obtain ⟨named, short⟩ := names name sensor
  have text := printFloat2_length value
  obtain ⟨message, sent, plain⟩ :=
    sendValue_plain name (printFloat2 value) named sign total written (by omega)
  exact ⟨message, sign, total, sent, plain, denoted⟩

theorem double_message (name : Bytes) (named : Named name) (short : name.length ≤ 14)
    (number : Int32) :
    ∃ message sign total, sendValue name (printDouble2 (hundredths number)) = some message ∧
      Plain message name (fixedNumber sign total) := by
  obtain ⟨sign, total, written, bound⟩ := printDouble2_hundredths number
  have whole : total / 100 < 10 ^ 63 := by omega
  have digits := decimal_length (total / 100) 63 (by decide) whole
  have signed := signText_length sign
  have size : (printDouble2 (hundredths number)).length ≤ 67 := by
    have point : (ascii ".").length = 1 := rfl
    simp only [written, fixed2, List.length_append, List.length_cons, List.length_nil]
    omega
  obtain ⟨message, sent, plain⟩ :=
    sendValue_plain name _ named sign total written (by omega)
  exact ⟨message, sign, total, sent, plain⟩

theorem gy63_message (reading : PressureCompensation.Reading) :
    ∀ sent ∈ gy63Messages reading, ∃ message name sign total, sent = some message ∧
      Plain message name (fixedNumber sign total) := by
  intro sent member
  simp only [gy63Messages, List.mem_cons, List.not_mem_nil, or_false] at member
  rcases member with rfl | rfl
  · obtain ⟨message, sign, total, written, plain⟩ :=
      double_message (ascii "gy63_press_hpa") (by decide) (by decide) reading.pressurePa
    exact ⟨message, _, sign, total, written, plain⟩
  · obtain ⟨message, sign, total, written, plain⟩ :=
      double_message (ascii "gy63_temp") (by decide) (by decide) reading.temp
    exact ⟨message, _, sign, total, written, plain⟩

theorem decimal_text_noNul (numeral : Numeral decimalBase) : nul ∉ numeral.text := by
  intro member
  have bytes := numeral_bytes numeral nul member
  exact absurd bytes (by decide)

theorem plain_carries (datagram name : Bytes) (number : Number)
    (plain : Plain datagram name number) : Carries datagram name number := by
  obtain ⟨sign, magnitude⟩ := number
  obtain ⟨named, rfl, numeral, rfl⟩ := plain
  have noNul : nul ∉ name ++ 58 :: Number.text ⟨sign, .decimal numeral⟩ := by
    intro member
    rcases List.mem_append.mp member with inName | inText
    · exact named.noNul inName
    · rcases List.mem_cons.mp inText with colon | inNumber
      · exact absurd colon (by decide)
      · rcases List.mem_append.mp inNumber with inSign | inNumeral
        · exact absurd (signBytes_sign sign nul inSign) (by decide)
        · exact decimal_text_noNul numeral inNumeral
  refine ⟨named, [], [], ?_, List.forall_mem_nil _, ?_⟩
  · rw [cstring_self _ noNul, List.append_nil, List.nil_append]
  · have over_nothing (kind : UInt8 → Bool) : Stops kind [] := stops_dropWhile kind []
    refine ⟨⟨?_, fun _ => ⟨over_nothing _, fun _ => over_nothing _⟩⟩, fun _ => over_nothing _⟩
    cases numeral.exponent with
    | none => exact over_nothing _
    | some exponent => exact over_nothing _

/-- The listener appends exactly what a datagram carries, provided it is finite
in binary32; every plain message carries its own name and value, and what the
clients send is plain. -/
theorem listener_accepts (store : DataStore) (datagram : Bytes) (now : Int64)
    (short : datagram.length ≤ 1023) (room : store.count < maxSensors) :
    ((socketListener store datagram now).data = store.data ∨
      ∃ entry, (socketListener store datagram now).data = store.data ++ [entry]) ∧
    (∀ entry : SensorData, (socketListener store datagram now).data = store.data ++ [entry] ↔
      entry.timestamp = now ∧ ∃ number, Carries datagram entry.sensorName.bytes number ∧
        number.value = entry.value ∧ entry.value.isFinite = true) ∧
    (∀ name number, Plain datagram name number → Carries datagram name number) ∧
    (∀ name ∈ floatSensors, ∀ value : Float32, value.isFinite = true →
      ∃ message sign total, sendValue name (printFloat2 value) = some message ∧
        Plain message name (fixedNumber sign total) ∧
        floatHundredths value = some (sign.apply total)) ∧
    (∀ reading, ∀ sent ∈ gy63Messages reading, ∃ message name sign total, sent = some message ∧
      Plain message name (fixedNumber sign total)) :=
  ⟨socketListener_appends store datagram now, socketListener_iff store datagram now short room,
    plain_carries datagram, float_message, gy63_message⟩

theorem listener_accepts_one :
    (socketListener DataStore.reset (ascii "t:1.50") 7).data =
      [⟨SensorName.copy (ascii "t"), Number.value (fixedNumber .positive 150), 7⟩] := by
  have plain : Plain (ascii "t:1.50") (ascii "t") (fixedNumber .positive 150) :=
    ⟨by decide, by decide, _, rfl⟩
  obtain ⟨_, appended, carried, _, _⟩ :=
    listener_accepts DataStore.reset (ascii "t:1.50") 7 (by decide) (by decide)
  exact (appended _).mpr ⟨rfl, _, carried _ _ plain, rfl, by decide +kernel⟩

theorem plain_bytes (datagram name : Bytes) (number : Number)
    (plain : Plain datagram name number) :
    ∀ byte ∈ (datagram.dropWhile fun byte => byte != 58).tail,
      isDigit byte || isPoint byte || isMarker 101 byte || isSign byte := by
  obtain ⟨sign, magnitude⟩ := number
  obtain ⟨named, rfl, numeral, rfl⟩ := plain
  have skipped := (takeWhile_stops (fun byte => byte != 58) name
    (58 :: Number.text ⟨sign, .decimal numeral⟩)
    (bne_of_notMem named.noColon)
    (fun byte member => by cases member; rfl)).2
  rw [skipped, List.tail_cons]
  intro byte member
  rcases List.mem_append.mp member with inSign | inNumeral
  · simp [signBytes_sign sign byte inSign]
  · rcases numeral_bytes numeral byte inNumeral with digit | point | letter | sign | digit
    · simp [show isDigit byte = true from digit]
    · simp [point]
    · simp [show isMarker 101 byte = true from letter]
    · simp [sign]
    · simp [digit]

/-- The listener appends these, none of them plain (text after the number, white
space before it, a hexadecimal number, a NUL), and not a decimal too large for
binary32. -/
theorem listener_unanchored :
    (∀ datagram ∈ [ascii "a:1x", ascii "a: 1", ascii "a:0x1", ascii "a:1" ++ [nul]],
      (socketListener DataStore.reset datagram 7).data = [⟨SensorName.copy (ascii "a"), 1, 7⟩] ∧
      ∀ name number, ¬ Plain datagram name number) ∧
    (∃ number, Plain (ascii "a:1e39") (ascii "a") number) ∧
    (socketListener DataStore.reset (ascii "a:1e39") 7).data = [] := by
  have digits : ∀ text : Bytes, text.all isDigit = true → ∀ byte ∈ text, isDigit byte = true :=
    fun text all => List.all_eq_true.mp all
  refine ⟨?_, ⟨⟨none, .decimal ⟨[49], none, some ⟨101, none, [51, 57], rfl, digits _ rfl,
    by decide⟩, digits _ rfl, digits _ rfl, by decide⟩⟩, by decide, rfl, _, rfl⟩,
    by decide +kernel⟩
  intro datagram member
  refine ⟨?_, fun name number plain => absurd (plain_bytes datagram name number plain) ?_⟩
  · revert datagram
    decide +kernel
  · rw [← List.all_eq_true]
    clear name number plain
    revert datagram
    decide

end SensorNode.WireFormat
