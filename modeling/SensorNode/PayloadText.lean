import SensorNode.ReadingStore

/-!
`create_json_payload`: the store written into a 4096-byte buffer by successive
`snprintf` calls, stopping at an entry that no longer fits. The field widths
bound every store's text below the buffer size, so that branch is never taken
and the payload always holds every entry.
-/

namespace SensorNode.PayloadText

open LineStream DecimalText ReadingStore

def payloadCap : Nat := bufferSize * 4

def headerText (now : Int64) : Bytes :=
  ascii "\x7b\"timestamp\":" ++ decimalInt now.toInt ++ ascii ",\"sensors\":["

def entryText (entry : SensorData) (last : Bool) : Bytes :=
  ascii "\x7b\"name\":\"" ++ entry.sensorName.bytes ++ ascii "\",\"value\":" ++
    printFloat2 entry.value ++ ascii ",\"timestamp\":" ++ decimalInt entry.timestamp.toInt ++
    ascii "\x7d" ++ if last then [] else ascii ","

/-- The loop over `store->data`: the text so far and how many entries went in. -/
def payloadLoop : Bytes → List SensorData → Bytes × Nat
  | written, [] => (written, 0)
  | written, entry :: rest =>
      let text := entryText entry rest.isEmpty
      -- `snprintf` reports a longer text than there is room for.
      if payloadCap - written.length ≤ text.length then (written, 0)
      else
        let more := payloadLoop (written ++ text) rest
        (more.1, more.2 + 1)

/-- `memory` is the outcome of `malloc`. -/
def createJsonPayload (memory : Bool) (store : DataStore) (now : Int64) : Option Bytes :=
  if memory then
    let header := headerText now
    if payloadCap ≤ header.length then none
    else
      let written := (payloadLoop header store.data).1
      some (written ++ (ascii "]\x7d").take (payloadCap - written.length - 1))
  else none

/-- How many of the store's entries the payload holds. -/
def serialisedCount (store : DataStore) (now : Int64) : Nat :=
  (payloadLoop (headerText now) store.data).2

/-! ## Nothing is ever cut off -/

theorem int64_range (number : Int64) : -2 ^ 63 ≤ number.toInt ∧ number.toInt < 2 ^ 63 :=
  ⟨Int64.le_toInt number, Int64.toInt_lt number⟩

theorem timestamp_length (number : Int64) : (decimalInt number.toInt).length ≤ 20 :=
  decimalInt_length number.toInt (int64_range number).1 (int64_range number).2

theorem headerText_length (now : Int64) : (headerText now).length ≤ 45 := by
  have number := timestamp_length now
  have opening : (ascii "\x7b\"timestamp\":").length = 13 := rfl
  have closing : (ascii ",\"sensors\":[").length = 12 := rfl
  simp only [headerText, List.length_append]
  omega

theorem entryText_length (entry : SensorData) (last : Bool) :
    (entryText entry last).length ≤ 160 := by
  have name := entry.sensorName.short
  have value := printFloat2_length entry.value
  have number := timestamp_length entry.timestamp
  have opening : (ascii "\x7b\"name\":\"").length = 9 := rfl
  have valueKey : (ascii "\",\"value\":").length = 10 := rfl
  have timestampKey : (ascii ",\"timestamp\":").length = 13 := rfl
  have closing : (ascii "\x7d").length = 1 := rfl
  have separator : (if last then [] else ascii ",").length ≤ 1 := by cases last <;> decide
  simp only [entryText, List.length_append]
  omega

/-- The entries of the `sensors` array, each but the last followed by a comma. -/
def entriesText : List SensorData → Bytes
  | [] => []
  | entry :: rest => entryText entry rest.isEmpty ++ entriesText rest

def payloadText (store : DataStore) (now : Int64) : Bytes :=
  headerText now ++ entriesText store.data ++ ascii "]\x7d"

theorem entriesText_length (entries : List SensorData) :
    (entriesText entries).length ≤ 160 * entries.length := by
  induction entries with
  | nil => simp [entriesText]
  | cons entry rest ih =>
      have head := entryText_length entry rest.isEmpty
      simp only [entriesText, List.length_append, List.length_cons]
      omega

theorem payloadLoop_complete (entries : List SensorData) (written : Bytes)
    (room : written.length + 160 * entries.length < payloadCap) :
    payloadLoop written entries = (written ++ entriesText entries, entries.length) := by
  induction entries generalizing written with
  | nil => simp [payloadLoop, entriesText]
  | cons entry rest ih =>
      have text := entryText_length entry rest.isEmpty
      simp only [List.length_cons] at room
      have tail := ih (written ++ entryText entry rest.isEmpty) (by
        rw [List.length_append]
        omega)
      rw [payloadLoop]
      simp only
      rw [if_neg (by omega), tail, entriesText, List.append_assoc, List.length_cons]

/-- A store is bounded, so there is room for all its entries and the closing bytes. -/
theorem written_length (store : DataStore) (now : Int64) :
    (headerText now ++ entriesText store.data).length ≤ 4045 := by
  have header := headerText_length now
  have body := entriesText_length store.data
  have entries := store.bounded
  simp only [maxSensors] at entries
  rw [List.length_append]
  omega

theorem payloadLoop_store (store : DataStore) (now : Int64) :
    payloadLoop (headerText now) store.data =
      (headerText now ++ entriesText store.data, store.data.length) := by
  apply payloadLoop_complete
  have header := headerText_length now
  have entries := store.bounded
  simp only [maxSensors] at entries
  show _ < 4096
  omega

/-- Every entry of every store fits, so the truncation branch is dead. -/
theorem createJsonPayload_complete (store : DataStore) (now : Int64) :
    createJsonPayload true store now = some (payloadText store now) := by
  have header := headerText_length now
  have written := written_length store now
  have cap : payloadCap = 4096 := rfl
  have closing : (ascii "]\x7d").length = 2 := rfl
  simp only [createJsonPayload, payloadLoop_store, payloadText, ↓reduceIte]
  rw [if_neg (by omega), List.take_of_length_le]
  omega

theorem createJsonPayload_some (memory : Bool) (store : DataStore) (now : Int64) (text : Bytes)
    (returned : createJsonPayload memory store now = some text) :
    text = payloadText store now := by
  cases memory with
  | false => cases returned
  | true =>
      rw [createJsonPayload_complete] at returned
      exact (Option.some.inj returned).symm

theorem serialisedCount_complete (store : DataStore) (now : Int64) :
    serialisedCount store now = store.count := by
  rw [serialisedCount, payloadLoop_store]
  rfl

/-! ## What a payload is made of -/

theorem payloadText_length (store : DataStore) (now : Int64) :
    (payloadText store now).length ≤ 4047 := by
  have written := written_length store now
  have closing : (ascii "]\x7d").length = 2 := rfl
  rw [payloadText, List.length_append]
  omega

theorem payloadText_nonempty (store : DataStore) (now : Int64) : payloadText store now ≠ [] := by
  simp [payloadText, headerText, ascii]

theorem mem_entryText (entry : SensorData) (last : Bool) (byte : UInt8)
    (special : ¬ (32 ≤ byte ∧ byte < 128)) :
    byte ∈ entryText entry last ↔ byte ∈ entry.sensorName.bytes := by
  have opening : Printable (ascii "\x7b\"name\":\"") := by decide
  have valueKey : Printable (ascii "\",\"value\":") := by decide
  have timestampKey : Printable (ascii ",\"timestamp\":") := by decide
  have closing : Printable (ascii "\x7d") := by decide
  have separator : Printable (if last then [] else ascii ",") := by cases last <;> decide
  have value := printFloat2_printable entry.value
  have number := decimalInt_printable entry.timestamp.toInt
  have out (text : Bytes) (printable : Printable text) : byte ∉ text :=
    fun member => special (printable byte member)
  simp [entryText, out _ opening, out _ valueKey, out _ timestampKey, out _ closing,
    out _ separator, out _ value, out _ number]

theorem mem_payloadText (store : DataStore) (now : Int64) (byte : UInt8)
    (special : ¬ (32 ≤ byte ∧ byte < 128)) :
    byte ∈ payloadText store now ↔ ∃ entry ∈ store.data, byte ∈ entry.sensorName.bytes := by
  have opening : Printable (headerText now) :=
    printable_append _ _ (printable_append _ _ (by decide) (decimalInt_printable _)) (by decide)
  have closing : Printable (ascii "]\x7d") := by decide
  have entries : byte ∈ entriesText store.data ↔
      ∃ entry ∈ store.data, byte ∈ entry.sensorName.bytes := by
    induction store.data with
    | nil => simp [entriesText]
    | cons entry rest ih =>
        rw [entriesText, List.mem_append, ih, mem_entryText entry _ byte special,
          List.exists_mem_cons_iff]
  rw [payloadText, List.mem_append, List.mem_append, entries]
  constructor
  · rintro ((header | named) | closer)
    · exact absurd (opening byte header) special
    · exact named
    · exact absurd (closing byte closer) special
  · exact fun named => .inl (.inr named)

theorem payloadText_noNul (store : DataStore) (now : Int64) : nul ∉ payloadText store now := by
  rw [mem_payloadText store now nul (by decide)]
  rintro ⟨entry, _, member⟩
  exact entry.sensorName.noNul member

/-- No stored name holds a newline byte. -/
def SingleLine (store : DataStore) : Prop :=
  ∀ entry ∈ store.data, newline ∉ entry.sensorName.bytes

instance (store : DataStore) : Decidable (SingleLine store) :=
  List.decidableBAll _ store.data

theorem payloadText_newline (store : DataStore) (now : Int64) :
    newline ∉ payloadText store now ↔ SingleLine store := by
  rw [mem_payloadText store now newline (by decide)]
  simp [SingleLine]

end SensorNode.PayloadText
