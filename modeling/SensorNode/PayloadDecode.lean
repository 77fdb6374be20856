import SensorNode.JsonText
import SensorNode.PayloadText

/-!
Reading a payload back. The name is spliced between quotes as it stands, so the
text is the document it is meant to be exactly when no stored name needed
escaping and every stored value has decimals to print.
-/

namespace SensorNode.PayloadDecode

open LineStream DecimalText JsonText ReadingStore PayloadText

/-- The value of the first member with this key. -/
def member : Json → Bytes → Option Json
  | .object members, key => members.lookup key
  | _, _ => none

structure Reading where
  name : Bytes
  value : ℚ
  timestamp : ℚ

def decodeEntry (item : Json) : Option Reading :=
  match member item (ascii "name"), member item (ascii "value"),
      member item (ascii "timestamp") with
  | some (.string name), some (.number value), some (.number timestamp) =>
      some ⟨name, value, timestamp⟩
  | _, _, _ => none

def decodeSensors (doc : Json) : Option (List Reading) :=
  match member doc (ascii "sensors") with
  | some (.array items) => items.mapM decodeEntry
  | _ => none

/-- The reading is the entry, its value rounded to the two decimals printed. -/
def Same (entry : SensorData) (reading : Reading) : Prop :=
  reading.name = entry.sensorName.bytes ∧
    (∃ hundredths, floatHundredths entry.value = some hundredths ∧
      reading.value = (hundredths : ℚ) / 100) ∧
    reading.timestamp = (entry.timestamp.toInt : ℚ)

/-- The text is a JSON document whose `sensors` array decodes to the store. -/
def Faithful (store : DataStore) (text : Bytes) : Prop :=
  ∃ doc readings, Document text doc ∧ decodeSensors doc = some readings ∧
    List.Forall₂ Same store.data readings

/-- The entry prints as itself inside a JSON document. -/
def Printed (entry : SensorData) : Prop :=
  Utf8 entry.sensorName.bytes ∧ Plain entry.sensorName.bytes ∧ entry.value.isFinite = true

/-! ## One entry -/

/-- What follows the name inside an entry's object. -/
def afterName (entry : SensorData) (rest : Bytes) : Bytes :=
  quote :: (ascii "value" ++ quote :: colon :: (printFloat2 entry.value ++ comma ::
    quote :: (ascii "timestamp" ++ quote :: colon :: (decimalInt entry.timestamp.toInt ++
      closeBrace :: rest))))

theorem entryText_object (entry : SensorData) (last : Bool) (rest : Bytes) :
    entryText entry last ++ rest =
      openBrace :: quote :: (ascii "name" ++ quote :: colon :: quote ::
        (entry.sensorName.bytes ++ quote :: comma ::
          afterName entry ((if last then [] else [comma]) ++ rest))) := by
  have opening : ascii "\x7b\"name\":\"" =
      openBrace :: quote :: (ascii "name" ++ [quote, colon, quote]) := rfl
  have valueKey : ascii "\",\"value\":" =
      quote :: comma :: quote :: (ascii "value" ++ [quote, colon]) := rfl
  have timestampKey : ascii ",\"timestamp\":" =
      comma :: quote :: (ascii "timestamp" ++ [quote, colon]) := rfl
  have closing : ascii "\x7d" = [closeBrace] := rfl
  have separator : ascii "," = [comma] := rfl
  simp only [entryText, afterName, opening, valueKey, timestampKey, closing, separator,
    List.append_assoc, List.cons_append, List.nil_append]

def entryDoc (entry : SensorData) (hundredths : Int) : Json :=
  .object [(ascii "name", .string entry.sensorName.bytes),
    (ascii "value", .number ((hundredths : ℚ) / 100)),
    (ascii "timestamp", .number (entry.timestamp.toInt : ℚ))]

def entryReading (entry : SensorData) (hundredths : Int) : Reading :=
  ⟨entry.sensorName.bytes, (hundredths : ℚ) / 100, (entry.timestamp.toInt : ℚ)⟩

theorem decode_entryDoc (entry : SensorData) (hundredths : Int) :
    decodeEntry (entryDoc entry hundredths) = some (entryReading entry hundredths) := rfl

/-- A numeral starts with a digit or a sign, so the value parser reads it. -/
theorem parseValue_numeral (fuel : Nat) (text rest : Bytes) (value : ℚ) (byte : UInt8)
    (present : text.head? = some byte) (starts : byte = 45 ∨ isDigit byte = true)
    (read : parseNumber (text ++ rest) = some (value, rest)) :
    parseValue (fuel + 1) (text ++ rest) = some (.number value, rest) := by
  cases text with
  | nil => cases present
  | cons first tail =>
      cases present
      rw [List.cons_append] at read ⊢
      rcases starts with minus | digit
      · subst minus
        rw [parseValue_sign, read]
        rfl
      · rw [parseValue_digit fuel byte _ digit, read]
        rfl

theorem decimal_head (number : Nat) :
    ∃ byte, (decimal number).head? = some byte ∧ isDigit byte = true := by
  cases text : decimal number with
  | nil => exact absurd text (decimal_nonempty number)
  | cons byte rest => exact ⟨byte, rfl, decimal_digits number byte (by simp [text])⟩

theorem decimalInt_head (number : Int) :
    ∃ byte, (decimalInt number).head? = some byte ∧ (byte = 45 ∨ isDigit byte = true) := by
  unfold decimalInt
  split
  · exact ⟨45, rfl, .inl rfl⟩
  · obtain ⟨byte, head, digit⟩ := decimal_head number.natAbs
    exact ⟨byte, head, .inr digit⟩

theorem signed_head (sign : Float.Model.UnpackedFloat.Sign) (hundredths : Nat) :
    ∃ byte, (signText sign ++ fixed2 hundredths).head? = some byte ∧
      (byte = 45 ∨ isDigit byte = true) := by
  cases sign with
  | negative => exact ⟨45, rfl, .inl rfl⟩
  | positive =>
      obtain ⟨byte, head, digit⟩ := decimal_head (hundredths / 100)
      refine ⟨byte, ?_, .inr digit⟩
      simp [signText, fixed2, List.head?_append, head]

theorem printFloat2_head (value : Float32) (hundredths : Int)
    (finite : floatHundredths value = some hundredths) :
    ∃ byte, (printFloat2 value).head? = some byte ∧ (byte = 45 ∨ isDigit byte = true) := by
  unfold floatHundredths at finite
  unfold printFloat2
  split at finite
  · exact signed_head _ _
  · exact signed_head _ _
  · cases finite
  · cases finite

theorem parseMembers_afterName (entry : SensorData) (hundredths : Int) (fuel : Nat)
    (rest : Bytes) (finite : floatHundredths entry.value = some hundredths) :
    parseMembers (fuel + 3) (afterName entry rest) =
      some ([(ascii "value", .number ((hundredths : ℚ) / 100)),
        (ascii "timestamp", .number (entry.timestamp.toInt : ℚ))], rest) := by
  have value (tail : Bytes) : parseValue (fuel + 2) (printFloat2 entry.value ++ comma :: tail) =
      some (.number ((hundredths : ℚ) / 100), comma :: tail) := by
    obtain ⟨byte, head, starts⟩ := printFloat2_head entry.value hundredths finite
    exact parseValue_numeral _ _ _ _ byte head starts
      (parseNumber_printFloat2 _ _ _ _ comma_stops finite)
  have timestamp : parseValue (fuel + 1) (decimalInt entry.timestamp.toInt ++ closeBrace :: rest) =
      some (.number (entry.timestamp.toInt : ℚ), closeBrace :: rest) := by
    obtain ⟨byte, head, starts⟩ := decimalInt_head entry.timestamp.toInt
    exact parseValue_numeral _ _ _ _ byte head starts
      (parseNumber_decimalInt _ _ _ closeBrace_stops)
  rw [afterName, parseMembers_more (fuel + 2) (ascii "value") _ (by decide) _ _ (value _),
    parseMembers_last (fuel + 1) (ascii "timestamp") _ (by decide) _ _ timestamp]
  rfl

theorem parseValue_entry (entry : SensorData) (last : Bool) (hundredths : Int) (fuel : Nat)
    (rest : Bytes) (plain : Plain entry.sensorName.bytes)
    (finite : floatHundredths entry.value = some hundredths) :
    parseValue (fuel + 5) (entryText entry last ++ rest) =
      some (entryDoc entry hundredths, (if last then [] else [comma]) ++ rest) := by
  have name (tail : Bytes) : parseValue (fuel + 3)
      (quote :: (entry.sensorName.bytes ++ quote :: comma :: tail)) =
        some (.string entry.sensorName.bytes, comma :: tail) := by
    rw [parseValue_string, parseString_plain _ _ plain]
    rfl
  rw [entryText_object, parseValue_object,
    parseMembers_more (fuel + 3) (ascii "name") _ (by decide) _ _ (name _),
    parseMembers_afterName entry hundredths fuel _ finite]
  rfl

/-- The first `name` an entry's object decodes to is read from its own text. -/
theorem parseValue_name (entry : SensorData) (last : Bool) (fuel : Nat) (rest after : Bytes)
    (item : Json) (reading : Reading)
    (parsed : parseValue (fuel + 3) (entryText entry last ++ rest) = some (item, after))
    (decoded : decodeEntry item = some reading)
    (same : reading.name = entry.sensorName.bytes) : Plain entry.sensorName.bytes := by
  rw [entryText_object, parseValue_object] at parsed
  obtain ⟨⟨members, tail⟩, inner, shape⟩ := Option.map_eq_some_iff.mp parsed
  obtain ⟨value, left, more, first, front⟩ :=
    parseMembers_first (fuel + 1) (ascii "name") _ (by decide) members tail inner
  rw [parseValue_string] at first
  obtain ⟨⟨text, remaining⟩, scanned, string⟩ := Option.map_eq_some_iff.mp first
  cases shape
  cases string
  subst front
  have found : reading.name = text := by
    simp only [decodeEntry, member, List.lookup_cons_self] at decoded
    split at decoded
    · next _ _ _ named _ _ =>
      cases named
      cases decoded
      rfl
    · cases decoded
  rw [found] at same
  subst same
  exact ((parseString_unescaped _ comma _ (by decide) _).mp scanned).1

/-! ## The array -/

theorem parseItems_printed (entries : List SensorData) (rest : Bytes) (fuel : Nat)
    (present : entries ≠ []) (enough : entries.length + 5 ≤ fuel)
    (printed : ∀ entry ∈ entries, Printed entry) :
    ∃ items readings, parseItems fuel (entriesText entries ++ closeBracket :: rest) =
        some (items, rest) ∧
      items.mapM decodeEntry = some readings ∧ List.Forall₂ Same entries readings := by
  induction entries generalizing fuel with
  | nil => exact absurd rfl present
  | cons entry others ih =>
      obtain ⟨⟨_, plain, finite⟩, remaining⟩ := List.forall_mem_cons.mp printed
      rw [← floatHundredths_finite, Option.isSome_iff_exists] at finite
      obtain ⟨hundredths, finite⟩ := finite
      simp only [List.length_cons] at enough
      obtain ⟨spare, same⟩ := Nat.exists_eq_add_of_le enough
      have split : fuel = (others.length + spare) + 5 + 1 := by omega
      have read := parseValue_entry entry others.isEmpty hundredths (others.length + spare)
        (entriesText others ++ closeBracket :: rest) plain finite
      rw [split, entriesText, List.append_assoc]
      have kept : Same entry (entryReading entry hundredths) :=
        ⟨rfl, ⟨hundredths, finite, rfl⟩, rfl⟩
      -- The last entry is closed by the bracket, every other by a comma.
      cases others with
      | nil =>
          refine ⟨[entryDoc entry hundredths], [entryReading entry hundredths],
            parseItems_last _ _ _ _ read, ?_, .cons kept .nil⟩
          rw [List.mapM_cons, decode_entryDoc]
          rfl
      | cons next others =>
          obtain ⟨items, readings, parsed, decoded, matched⟩ :=
            ih ((next :: others).length + spare + 5) (List.cons_ne_nil next others)
              (by simp only [List.length_cons]; omega) remaining
          refine ⟨entryDoc entry hundredths :: items, entryReading entry hundredths :: readings,
            ?_, ?_, .cons kept matched⟩
          · rw [parseItems_more _ _ (entriesText (next :: others) ++ closeBracket :: rest) _ read,
              parsed]
            rfl
          · rw [List.mapM_cons, decode_entryDoc, decoded]
            rfl

theorem parseItems_decoded (entries : List SensorData) (rest after : Bytes) (fuel : Nat)
    (items : List Json) (readings : List Reading) (enough : entries.length + 5 ≤ fuel)
    (parsed : parseItems fuel (entriesText entries ++ closeBracket :: rest) = some (items, after))
    (decoded : items.mapM decodeEntry = some readings)
    (matched : List.Forall₂ Same entries readings) :
    ∀ entry ∈ entries, Plain entry.sensorName.bytes ∧ entry.value.isFinite = true := by
  -- By induction on the entries: each item that decodes to a reading is its entry.
  induction entries generalizing fuel items readings with
  | nil => simp
  | cons entry others ih =>
      simp only [List.length_cons] at enough
      obtain ⟨spare, same⟩ := Nat.exists_eq_add_of_le enough
      have split : fuel = (others.length + spare) + 5 + 1 := by omega
      rw [split, entriesText, List.append_assoc] at parsed
      obtain ⟨item, left, more, first, front⟩ := parseItems_first _ _ _ _ parsed
      subst front
      cases matched with
      | cons kept tail =>
          rename_i reading later
          rw [List.mapM_cons] at decoded
          obtain ⟨head, decodedHead, decoded⟩ := Option.bind_eq_some_iff.mp decoded
          obtain ⟨others', decodedTail, decoded⟩ := Option.bind_eq_some_iff.mp decoded
          cases decoded
          obtain ⟨named, ⟨hundredths, finite, _⟩, _⟩ := kept
          have plain := parseValue_name entry others.isEmpty (others.length + spare + 2) _ _ item
            reading first decodedHead named
          have isFinite : entry.value.isFinite = true := by
            rw [← floatHundredths_finite, finite]
            rfl
          refine List.forall_mem_cons.mpr ⟨⟨plain, isFinite⟩, ?_⟩
          cases others with
          | nil => simp
          | cons next others =>
              have read := parseValue_entry entry false hundredths
                ((next :: others).length + spare)
                (entriesText (next :: others) ++ closeBracket :: rest) plain finite
              rw [show (next :: others).isEmpty = false from rfl] at parsed
              rw [parseItems_more _ _ _ _ read] at parsed
              obtain ⟨⟨items, remaining⟩, inner, shape⟩ := Option.map_eq_some_iff.mp parsed
              cases shape
              exact ih _ items later (by simp only [List.length_cons]; omega) inner
                decodedTail tail

/-! ## The document -/

def sensorsText (entries : List SensorData) : Bytes :=
  openBracket :: (entriesText entries ++ closeBracket :: [closeBrace])

theorem payloadText_object (store : DataStore) (now : Int64) :
    payloadText store now =
      openBrace :: quote :: (ascii "timestamp" ++ quote :: colon :: (decimalInt now.toInt ++
        comma :: quote :: (ascii "sensors" ++ quote :: colon :: sensorsText store.data))) := by
  have opening : ascii "\x7b\"timestamp\":" =
      openBrace :: quote :: (ascii "timestamp" ++ [quote, colon]) := rfl
  have sensors : ascii ",\"sensors\":[" =
      comma :: quote :: (ascii "sensors" ++ [quote, colon, openBracket]) := rfl
  have closing : ascii "]\x7d" = [closeBracket, closeBrace] := rfl
  simp only [payloadText, headerText, sensorsText, opening, sensors, closing, List.append_assoc,
    List.cons_append, List.nil_append]

theorem parseValue_sensors (entries : List SensorData) (fuel : Nat) (present : entries ≠ []) :
    parseValue (fuel + 1) (sensorsText entries) =
      (parseItems fuel (entriesText entries ++ [closeBracket, closeBrace])).map fun read =>
        (.array read.1, read.2) := by
  cases entries with
  | nil => exact absurd rfl present
  | cons entry rest =>
      rw [sensorsText, entriesText, List.append_assoc, entryText_object]
      exact parseValue_array fuel openBrace _ (by decide) (by decide)

theorem entriesText_room (entries : List SensorData) :
    entries.length ≤ (entriesText entries).length := by
  induction entries with
  | nil => simp
  | cons entry rest ih =>
      have opening : (ascii "\x7b\"name\":\"").length = 9 := rfl
      simp only [entriesText, entryText, List.length_append, List.length_cons]
      omega

section
variable (store : DataStore) (now : Int64)

theorem parse_fuel :
    ∃ fuel, 2 * (payloadText store now).length + 2 = fuel + 4 ∧ store.data.length + 5 ≤ fuel := by
  have room := entriesText_room store.data
  have opening : (ascii "\x7b\"timestamp\":").length = 13 := rfl
  refine ⟨2 * (payloadText store now).length - 2, ?_, ?_⟩ <;>
    simp only [payloadText, headerText, List.length_append] <;> omega

/-- Up to the array the text is fixed, so a parse is a parse of the array. -/
theorem parseMembers_payload (fuel : Nat) :
    parseMembers (fuel + 3) (quote :: (ascii "timestamp" ++ quote :: colon ::
        (decimalInt now.toInt ++ comma :: quote :: (ascii "sensors" ++ quote :: colon ::
          sensorsText store.data)))) =
      (parseMembers (fuel + 2) (quote :: (ascii "sensors" ++ quote :: colon ::
        sensorsText store.data))).map fun read =>
          ((ascii "timestamp", .number (now.toInt : ℚ)) :: read.1, read.2) := by
  obtain ⟨byte, head, starts⟩ := decimalInt_head now.toInt
  exact parseMembers_more (fuel + 2) (ascii "timestamp") _ (by decide) _ _
    (parseValue_numeral (fuel + 1) _ _ _ byte head starts
      (parseNumber_decimalInt now.toInt comma _ comma_stops))

/-- The `sensors` member, from its key on, ends the document. -/
def sensorsMember : Bytes :=
  quote :: (ascii "sensors" ++ quote :: colon :: sensorsText store.data)

theorem parse_payload (fuel : Nat)
    (enough : 2 * (payloadText store now).length + 2 = fuel + 4) :
    parse (payloadText store now) =
      (parseMembers (fuel + 2) (sensorsMember store)).bind fun read =>
        if skipSpace read.2 = [] then
          some (.object ((ascii "timestamp", .number (now.toInt : ℚ)) :: read.1))
        else none := by
  rw [parse, enough, payloadText_object, parseValue_object, parseMembers_payload, sensorsMember]
  generalize parseMembers (fuel + 2) _ = outcome
  cases outcome with
  | none => exact rfl
  | some read => exact rfl

theorem parse_sensors (items : List Json) (fuel : Nat)
    (enough : 2 * (payloadText store now).length + 2 = fuel + 4)
    (array : parseValue (fuel + 1) (sensorsText store.data) =
      some (.array items, [closeBrace])) :
    parse (payloadText store now) = some (.object [(ascii "timestamp", .number (now.toInt : ℚ)),
      (ascii "sensors", .array items)]) := by
  rw [parse_payload store now fuel enough, sensorsMember,
    parseMembers_last (fuel + 1) (ascii "sensors") _ (by decide) _ _ array, Option.bind_some]
  exact if_pos rfl

theorem sensors_parsed (doc : Json) (readings : List Reading) (fuel : Nat)
    (enough : 2 * (payloadText store now).length + 2 = fuel + 4)
    (parsed : parse (payloadText store now) = some doc)
    (decoded : decodeSensors doc = some readings) :
    ∃ items after, parseValue (fuel + 1) (sensorsText store.data) = some (.array items, after) ∧
      items.mapM decodeEntry = some readings := by
  rw [parse_payload store now fuel enough, Option.bind_eq_some_iff] at parsed
  obtain ⟨⟨members, rest⟩, inner, whole⟩ := parsed
  obtain ⟨_, shape⟩ := Option.ite_none_right_eq_some.mp whole
  obtain ⟨value, after, more, found, front⟩ :=
    parseMembers_first (fuel + 1) (ascii "sensors") _ (by decide) members rest inner
  have other : (ascii "sensors" == ascii "timestamp") = false := by decide
  have sensors : member doc (ascii "sensors") = some value := by
    cases shape
    rw [member, front, List.lookup_cons, other, List.lookup_cons_self]
  rw [decodeSensors, sensors] at decoded
  cases value with
  | array items => exact ⟨items, after, found, decoded⟩
  | _ => cases decoded

end

/-! ## Encoding -/

theorem utf8_printable (text : Bytes) (printable : Printable text) : Utf8 text :=
  utf8_ascii text fun byte member => (printable byte member).2

theorem afterName_utf8 (entry : SensorData) (rest : Bytes) :
    Utf8 (afterName entry rest) ↔ Utf8 rest := by
  have shape : afterName entry rest = (quote :: (ascii "value" ++ quote :: colon ::
      (printFloat2 entry.value ++ comma :: quote :: (ascii "timestamp" ++ quote :: colon ::
        decimalInt entry.timestamp.toInt)))) ++ closeBrace :: rest := by
    simp [afterName]
  have front : Printable ([quote] ++ ascii "value" ++ [quote, colon] ++ printFloat2 entry.value ++
      [comma, quote] ++ ascii "timestamp" ++ [quote, colon] ++
        decimalInt entry.timestamp.toInt ++ [closeBrace]) := by
    refine printable_append _ _ (printable_append _ _ (printable_append _ _ (printable_append _ _
      (printable_append _ _ (printable_append _ _ (by decide) (printFloat2_printable _))
        (by decide)) (by decide)) (by decide)) (decimalInt_printable _)) (by decide)
  constructor
  · intro encoded
    rw [shape] at encoded
    exact (utf8_split _ rest closeBrace (by decide) encoded).2
  · intro encoded
    have whole := utf8_append _ rest (utf8_printable _ front) encoded
    simpa [afterName] using whole

theorem entryText_utf8 (entry : SensorData) (last : Bool) (rest : Bytes) :
    Utf8 (entryText entry last ++ rest) ↔ Utf8 entry.sensorName.bytes ∧ Utf8 rest := by
  have separator : Utf8 ((if last then [] else [comma]) ++ rest) ↔ Utf8 rest := by
    cases last with
    | true => exact Iff.rfl
    | false =>
        constructor
        · exact fun encoded => (utf8_split [] rest comma (by decide) encoded).2
        · exact fun encoded => utf8_append [comma] rest (utf8_printable _ (by decide)) encoded
  have tail : Utf8 (quote :: comma :: afterName entry ((if last then [] else [comma]) ++ rest)) ↔
      Utf8 rest := by
    rw [← separator]
    refine Iff.trans ?_ (afterName_utf8 entry _)
    constructor
    · exact fun encoded => (utf8_split [quote] _ comma (by decide) encoded).2
    · exact fun encoded => utf8_append [quote, comma] _ (utf8_printable _ (by decide)) encoded
  have opening : openBrace :: quote :: (ascii "name" ++ quote :: colon :: quote ::
      (entry.sensorName.bytes ++ quote :: comma ::
        afterName entry ((if last then [] else [comma]) ++ rest))) =
      (openBrace :: quote :: (ascii "name" ++ [quote, colon])) ++ quote ::
        (entry.sensorName.bytes ++ quote :: comma ::
          afterName entry ((if last then [] else [comma]) ++ rest)) := by
    simp
  rw [entryText_object, opening, ← tail]
  constructor
  · intro encoded
    have name := (utf8_split _ _ quote (by decide) encoded).2
    obtain ⟨left, right⟩ := utf8_split _ _ quote (by decide) name
    exact ⟨left, utf8_append [quote] _ (utf8_printable _ (by decide)) right⟩
  · rintro ⟨name, after⟩
    have front : Utf8 (openBrace :: quote :: (ascii "name" ++ [quote, colon]) ++ [quote]) :=
      utf8_printable _ (by decide)
    simpa using utf8_append _ _ front (utf8_append _ _ name after)

theorem entriesText_utf8 (entries : List SensorData) (rest : Bytes) :
    Utf8 (entriesText entries ++ rest) ↔
      (∀ entry ∈ entries, Utf8 entry.sensorName.bytes) ∧ Utf8 rest := by
  induction entries with
  | nil => simp [entriesText]
  | cons entry others ih =>
      rw [entriesText, List.append_assoc, entryText_utf8, ih, List.forall_mem_cons, and_assoc]

theorem payloadText_utf8 (store : DataStore) (now : Int64) :
    Utf8 (payloadText store now) ↔ ∀ entry ∈ store.data, Utf8 entry.sensorName.bytes := by
  have header : Printable (headerText now) :=
    printable_append _ _ (printable_append _ _ (by decide) (decimalInt_printable _)) (by decide)
  have closing : Utf8 (ascii "]\x7d") := utf8_printable _ (by decide)
  rw [payloadText, List.append_assoc]
  constructor
  · intro encoded
    have shape : headerText now ++ (entriesText store.data ++ ascii "]\x7d") =
        (ascii "\x7b\"timestamp\":" ++ decimalInt now.toInt ++ ascii ",\"sensors\":") ++
          openBracket :: (entriesText store.data ++ ascii "]\x7d") := by
      have sensors : ascii ",\"sensors\":[" = ascii ",\"sensors\":" ++ [openBracket] := rfl
      rw [headerText, sensors]
      simp
    rw [shape] at encoded
    exact ((entriesText_utf8 _ _).mp (utf8_split _ _ openBracket (by decide) encoded).2).1
  · exact fun names =>
      utf8_append _ _ (utf8_printable _ header) ((entriesText_utf8 _ _).mpr ⟨names, closing⟩)

/-! ## The round trip -/

theorem payload_faithful (store : DataStore) (now : Int64)
    (printed : ∀ entry ∈ store.data, Printed entry) : Faithful store (payloadText store now) := by
  obtain ⟨fuel, enough, room⟩ := parse_fuel store now
  have encoded := (payloadText_utf8 store now).mpr fun entry inStore => (printed entry inStore).1
  by_cases present : store.data = []
  · have array : parseValue (fuel + 1) (sensorsText store.data) =
        some (.array [], [closeBrace]) := by
      rw [present]
      exact parseValue_emptyArray fuel [closeBrace]
    refine ⟨_, [], ⟨encoded, parse_sensors store now [] fuel enough array⟩, rfl, ?_⟩
    rw [present]
    exact .nil
  · obtain ⟨items, readings, parsed, decoded, matched⟩ :=
      parseItems_printed store.data [closeBrace] fuel present room printed
    have array : parseValue (fuel + 1) (sensorsText store.data) =
        some (.array items, [closeBrace]) := by
      rw [parseValue_sensors store.data fuel present, parsed]
      rfl
    exact ⟨_, readings, ⟨encoded, parse_sensors store now items fuel enough array⟩, decoded,
      matched⟩

theorem faithful_printed (store : DataStore) (now : Int64)
    (faithful : Faithful store (payloadText store now)) : ∀ entry ∈ store.data, Printed entry := by
  obtain ⟨doc, readings, ⟨encoded, parsed⟩, decoded, matched⟩ := faithful
  obtain ⟨fuel, enough, room⟩ := parse_fuel store now
  obtain ⟨items, after, array, items_decoded⟩ :=
    sensors_parsed store now doc readings fuel enough parsed decoded
  intro entry inStore
  rw [parseValue_sensors store.data fuel (List.ne_nil_of_mem inStore)] at array
  obtain ⟨⟨read, rest⟩, inner, same⟩ := Option.map_eq_some_iff.mp array
  cases same
  have kept := parseItems_decoded store.data [closeBrace] _ fuel read readings room inner
    items_decoded matched entry inStore
  exact ⟨(payloadText_utf8 store now).mp encoded entry inStore, kept⟩

/-- The payload reads back as the store exactly when every name is UTF-8 that
needs no escaping and every value is finite. -/
theorem createJsonPayload_faithful_iff (store : DataStore) (now : Int64) :
    (∀ memory text, createJsonPayload memory store now = some text → Faithful store text) ↔
      ∀ entry ∈ store.data, Printed entry := by
  constructor
  · exact fun faithful =>
      faithful_printed store now (faithful true _ (createJsonPayload_complete store now))
  · intro printed memory text returned
    rw [createJsonPayload_some memory store now text returned]
    exact payload_faithful store now printed

/-- A datagram with a quote in its name is accepted, and its payload is no
document. -/
theorem createJsonPayload_quoted_name :
    ¬ ∀ memory text, createJsonPayload memory
        (computeDerivedMetrics ⟨Float.log, Float.exp⟩ (collect .reset [(ascii "a\"b:1", 0)])
          .initial ⟨0, 0, 0⟩).1 0 = some text →
      Faithful (computeDerivedMetrics ⟨Float.log, Float.exp⟩
        (collect .reset [(ascii "a\"b:1", 0)]) .initial ⟨0, 0, 0⟩).1 text := by
  intro faithful
  have printed := faithful_printed _ 0 (faithful true _ (createJsonPayload_complete _ 0))
  have stored : (computeDerivedMetrics ⟨Float.log, Float.exp⟩
      (collect .reset [(ascii "a\"b:1", 0)]) .initial ⟨0, 0, 0⟩).1.data.map
        (fun entry => entry.sensorName.bytes) = [ascii "a\"b"] := by decide +kernel
  obtain ⟨entry, inStore, named⟩ := List.mem_map.mp (stored ▸ List.mem_cons_self)
  exact absurd (named ▸ (printed entry inStore).2.1) (by decide)

end SensorNode.PayloadDecode
