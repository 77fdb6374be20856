import SensorNode.CollectorThreads
import SensorNode.ConfigLoad

/-!
The reading store as the memory it is: 25 cells with a `char[64]` each, whatever bytes
they hold, and a counter. Nothing here is well formed by its type; an access outside an
array or a name without a NUL is undefined. The two threads over this memory simulate
the ones over `DataStore`, and what is well formed always fits the payload buffer.
-/

namespace SensorNode.StoreMemory

open LineStream DecimalText ReadingStore PayloadText StepSystem
open CollectorThreads (Listener Sender Label)
open ConfigLoad (strncpy)

/-! ## The memory -/

structure Cell where
  sensorName : Vector UInt8 64
  value : Float32
  timestamp : Int64

/-- `data_store` without its lock. -/
structure Memory where
  data : Vector Cell 25
  count : Int

/-- None outside the array. -/
def Memory.cell (memory : Memory) (i : Int) : Option Cell :=
  if i < 0 then none else memory.data[i.toNat]?

/-- The string in a name, none when no NUL ends it within the array. -/
def Cell.text (cell : Cell) : Option Bytes :=
  if nul ∈ cell.sensorName.toList then some (cstring cell.sensorName.toList) else none

/-- `strncpy` of a string, and the NUL stored in the last byte. -/
def copyName (dest : Vector UInt8 64) (text : Bytes) : Vector UInt8 64 :=
  (strncpy dest (cstring text)).set 63 nul (by decide)

/-- An entry written at the counter, none when that is outside the array. -/
def Memory.append (memory : Memory) (name : Bytes) (value : Float32) (now : Int64) :
    Option Memory :=
  (memory.cell memory.count).map fun old =>
    { data := memory.data.setIfInBounds memory.count.toNat
        ⟨copyName old.sensorName name, value, now⟩
      count := memory.count + 1 }

def Memory.addDerived (memory : Memory) (name : Bytes) (value : Float32) (now : Int64) :
    Option Memory :=
  if memory.count ≥ maxSensors then some memory else memory.append name value now

/-- `find_sensor` from cell `i` on, `left` cells to go. -/
def Memory.findFrom (memory : Memory) (name : Bytes) : (left : Nat) → (i : Int) →
    Option (Option Float32)
  | 0, _ => some none
  | left + 1, i => do
      let cell ← memory.cell i
      let text ← cell.text
      if text = name then some (some cell.value) else memory.findFrom name left (i + 1)

def Memory.findSensor (memory : Memory) (name : Bytes) : Option (Option Float32) :=
  memory.findFrom name memory.count.toNat 0

def refreshed (cache : DerivedCache) (temp rh : Option Float32) : DerivedCache :=
  let seen := match temp with
    | some temp => { cache with cachedTemp := temp, haveTemp := true }
    | none => cache
  match rh with
  | some rh => { seen with cachedRh := rh, haveRh := true }
  | none => seen

def Memory.computeDerivedMetrics (libm : Libm) (memory : Memory) (cache : DerivedCache)
    (clock : DerivedClock) : Option (Memory × DerivedCache) := do
  let foundTemp ← memory.findSensor (ascii "htu21d_temp")
  let foundRh ← memory.findSensor (ascii "htu21d_rh")
  let cache := refreshed cache foundTemp foundRh
  if derivable cache then
    let temp := cache.cachedTemp
    let rh := cache.cachedRh
    let memory ← memory.addDerived (ascii "dew_point") (dewPoint libm temp rh) clock.dewPoint
    let memory ← memory.addDerived (ascii "heat_index") (heatIndex temp rh) clock.heatIndex
    let memory ← memory.addDerived (ascii "abs_humidity") (absHumidity libm temp rh)
      clock.absHumidity
    return (memory, cache)
  else return (memory, cache)

/-! ## The payload -/

def cellText (name : Bytes) (value : Float32) (timestamp : Int64) (last : Bool) : Bytes :=
  ascii "\x7b\"name\":\"" ++ name ++ ascii "\",\"value\":" ++ printFloat2 value ++
    ascii ",\"timestamp\":" ++ decimalInt timestamp.toInt ++ ascii "\x7d" ++
    if last then [] else ascii ","

/-- What the loop leaves in the buffer; `truncated` is its warning. -/
inductive Body where
  | complete (text : Bytes)
  | truncated (i : Int) (text : Bytes)
  deriving DecidableEq

def Body.text : Body → Bytes
  | .complete text | .truncated _ text => text

inductive Outcome where
  | noMemory
  | early
  | returned (body : Body) (closing : Bytes)
  deriving DecidableEq

/-- The loop from cell `i` on, none when a name or an index is out of bounds. -/
def Memory.writeFrom (memory : Memory) : (left : Nat) → (i : Int) → Bytes → Option Body
  | 0, _, written => some (.complete written)
  | left + 1, i, written => do
      let cell ← memory.cell i
      let name ← cell.text
      let text := cellText name cell.value cell.timestamp (decide (¬ i < memory.count - 1))
      if payloadCap - written.length ≤ text.length then some (.truncated i written)
      else memory.writeFrom left (i + 1) (written ++ text)

def Memory.createJsonPayload (allocates : Bool) (memory : Memory) (now : Int64) :
    Option Outcome :=
  if allocates then
    let header := headerText now
    if payloadCap ≤ header.length then some .early
    else do
      let body ← memory.writeFrom memory.count.toNat 0 header
      -- The last `snprintf` keeps what fits before its NUL.
      return .returned body ((ascii "]\x7d").take (payloadCap - body.text.length - 1))
  else some .noMemory

/-! ## The threads -/

structure State where
  memory : Memory
  cache : DerivedCache
  listener : Listener
  sender : Sender
  /-- Something undefined has happened. -/
  faulted : Bool

def emptyCell : Cell := ⟨Vector.replicate 64 nul, 0, 0⟩

def initial : State :=
  ⟨⟨Vector.replicate 25 emptyCell, 0⟩, .initial, .receiving, .testing, false⟩

def fault (state : State) : State := { state with faulted := true }

def appendStep (state : State) (reading : Bytes × Float32) (now : Int64) : State :=
  if state.memory.count < maxSensors then
    match state.memory.append reading.1 reading.2 now with
    | none => fault state
    | some memory => { state with memory := memory, listener := .receiving }
  else { state with listener := .receiving }

def deriveStep (libm : Libm) (state : State) (clock : DerivedClock) : State :=
  match state.memory.computeDerivedMetrics libm state.cache clock with
  | none => fault state
  | some (memory, cache) => { state with memory := memory, cache := cache, sender := .serialising }

def serialiseStep (state : State) (allocates : Bool) (now : Int64) : State :=
  match state.memory.createJsonPayload allocates now with
  | none => fault state
  | some (.returned _ _) => { state with sender := .sending }
  | some .noMemory | some .early => { state with sender := .testing }

def step (libm : Libm) (state : State) (label : Label) : Option State :=
  if state.faulted then none
  else
    match label, state.listener, state.sender with
    | .receive datagram, .receiving, _ =>
        match parseDatagram datagram with
        | none => some state
        | some reading => some { state with listener := .appending reading }
    | .append now, .appending reading, _ => some (appendStep state reading now)
    | .test, _, .testing =>
        some { state with sender := if 0 < state.memory.count then .computing else .testing }
    | .derive clock, _, .computing => some (deriveStep libm state clock)
    | .serialise allocates now, _, .serialising => some (serialiseStep state allocates now)
    | .send sent, _, .sending => some { state with sender := .resetting sent }
    | .reset, _, .resetting sent =>
        some { state with
          memory := { state.memory with count := 0 }
          sender := if sent then .draining else .testing }
    | .drain, _, .draining => some { state with sender := .testing }
    | _, _, _ => none

/-! ## What is well formed -/

/-- At most 63 bytes, and the NUL after them. -/
def Cell.Terminated (cell : Cell) : Prop :=
  ∃ text rest, cell.sensorName.toList = text ++ nul :: rest ∧ nul ∉ text ∧ text.length ≤ 63

structure Memory.WellFormed (memory : Memory) : Prop where
  low : 0 ≤ memory.count
  high : memory.count ≤ maxSensors
  names : ∀ i : Nat, (i : Int) < memory.count → ∃ cell, memory.cell i = some cell ∧ cell.Terminated

/-- The cell has the string and the numbers of the entry. -/
structure Cell.Holds (cell : Cell) (entry : SensorData) : Prop where
  name : cell.text = some entry.sensorName.bytes
  value : cell.value = entry.value
  timestamp : cell.timestamp = entry.timestamp

/-- The cells below the counter hold the entries of the store. -/
structure Memory.Represents (memory : Memory) (store : DataStore) : Prop where
  count : memory.count = store.data.length
  cells : ∀ (i : Nat) entry, store.data[i]? = some entry →
    ∃ cell, memory.cell i = some cell ∧ cell.Holds entry

/-! ## Names -/

theorem text_split (cell : Cell) (text rest : Bytes)
    (bytes : cell.sensorName.toList = text ++ nul :: rest) (noNul : nul ∉ text) :
    cell.text = some text := by
  have stops : cstring cell.sensorName.toList = text := by
    rw [bytes, cstring, List.takeWhile_append_of_pos (bne_of_notMem noNul)]
    simp
  rw [Cell.text, if_pos (by rw [bytes]; simp), stops]

theorem terminated_of_text (cell : Cell) (text : Bytes) (stored : cell.text = some text) :
    cell.Terminated := by
  unfold Cell.text at stored
  split at stored
  · next ended =>
    cases stored
    have length : cell.sensorName.toList.length = 64 := Vector.length_toList
    have split : cstring cell.sensorName.toList ++
        (cell.sensorName.toList.dropWhile fun byte => byte != nul) = cell.sensorName.toList :=
      List.takeWhile_append_dropWhile
    have halves := congrArg List.length split
    rw [List.length_append, length] at halves
    cases after : cell.sensorName.toList.dropWhile fun byte => byte != nul with
    | nil =>
        rw [after, List.append_nil] at split
        rw [← split] at ended
        exact absurd ended (nul_notMem_cstring _)
    | cons byte rest =>
        have stop := List.head_dropWhile_not (fun byte => byte != nul)
          (l := cell.sensorName.toList) (by rw [after]; simp)
        simp only [after, List.head_cons, bne_eq_false_iff_eq] at stop
        rw [after, stop] at split
        rw [after, List.length_cons] at halves
        exact ⟨_, rest, split.symm, nul_notMem_cstring _, by omega⟩
  · cases stored

theorem copyName_byte (dest : Vector UInt8 64) (text : Bytes) (place : Nat) (inside : place < 64) :
    (copyName dest text).toList[place]? =
      some (if place < 63 then (cstring text).getD place nul else nul) := by
  have length : (copyName dest text).toList.length = 64 := Vector.length_toList
  rw [List.getElem?_eq_getElem (by omega)]
  by_cases last : place < 63
  · have below : place + 1 < 64 := by omega
    have other : ¬ 63 = place := by omega
    simp [copyName, strncpy, last, below, other]
  · have same : place = 63 := by omega
    simp [copyName, same]

theorem copyName_split (dest : Vector UInt8 64) (text : Bytes) :
    ∃ rest, (copyName dest text).toList = (SensorName.copy text).bytes ++ nul :: rest := by
  have length : (copyName dest text).toList.length = 64 := Vector.length_toList
  have kept : (SensorName.copy text).bytes = (cstring text).take 63 := rfl
  obtain ⟨size, sized⟩ : ∃ size, size = min 63 (cstring text).length := ⟨_, rfl⟩
  have front : (copyName dest text).toList.take size = (cstring text).take 63 := by
    apply List.ext_getElem?
    intro place
    by_cases early : place < size
    · rw [List.getElem?_take_of_lt early, copyName_byte dest text place (by omega),
        if_pos (by omega), List.getElem?_take_of_lt (by omega), List.getD_eq_getElem?_getD,
        List.getElem?_eq_getElem (by omega), Option.getD_some]
    · rw [List.getElem?_eq_none (by rw [List.length_take]; omega),
        List.getElem?_eq_none (by rw [List.length_take]; omega)]
  -- the byte after what is kept is padding, or the last one
  have stop : (copyName dest text).toList[size]? = some nul := by
    rw [copyName_byte dest text size (by omega)]
    by_cases full : size < 63
    · rw [if_pos full, List.getD_eq_getElem?_getD, List.getElem?_eq_none (by omega),
        Option.getD_none]
    · rw [if_neg full]
  obtain ⟨inside, byte⟩ := List.getElem?_eq_some_iff.mp stop
  have split := List.take_append_drop size (copyName dest text).toList
  rw [front, List.drop_eq_getElem_cons inside, byte, ← kept] at split
  exact ⟨_, split.symm⟩

theorem copyName_holds (dest : Vector UInt8 64) (name : Bytes) (value : Float32) (now : Int64) :
    Cell.Holds ⟨copyName dest name, value, now⟩ ⟨SensorName.copy name, value, now⟩ := by
  obtain ⟨rest, bytes⟩ := copyName_split dest name
  exact ⟨text_split _ _ rest bytes (SensorName.copy name).noNul, rfl, rfl⟩

/-! ## Representing a store -/

@[simp] theorem Memory.cell_natCast (memory : Memory) (i : Nat) :
    memory.cell i = memory.data[i]? := by
  simp [Memory.cell]

section
variable {memory : Memory} {store : DataStore} (represents : memory.Represents store)
include represents

theorem represents_wellFormed : memory.WellFormed where
  low := represents.count ▸ Int.natCast_nonneg _
  high := represents.count ▸ Nat.cast_le.mpr store.bounded
  names i below := by
    have inside : i < store.data.length := by
      have count := represents.count
      omega
    obtain ⟨cell, found, holds⟩ := represents.cells i _ (List.getElem?_eq_getElem inside)
    exact ⟨cell, found, terminated_of_text cell _ holds.name⟩

theorem append_represents (name : Bytes) (value : Float32) (now : Int64)
    (room : memory.count < maxSensors) :
    ∃ next, memory.append name value now = some next ∧
      next.Represents (store.push ⟨SensorName.copy name, value, now⟩) := by
  have count := represents.count
  have below : store.data.length < maxSensors := by omega
  have small : store.data.length < 25 := below
  have old : memory.cell memory.count = some memory.data[store.data.length] := by
    rw [count, Memory.cell_natCast, Vector.getElem?_eq_getElem small]
  refine ⟨_, by rw [Memory.append, old]; rfl, ?_, ?_⟩
  · rw [DataStore.push_data, if_pos below, List.length_append, count]
    rfl
  · intro i entry stored
    rw [DataStore.push_data, if_pos below] at stored
    simp only [count, Int.toNat_natCast, Memory.cell_natCast]
    by_cases last : i = store.data.length
    · subst last
      rw [List.getElem?_append_right (Nat.le_refl _), Nat.sub_self,
        List.getElem?_singleton] at stored
      cases stored
      have written := copyName_holds memory.data[store.data.length].sensorName name value now
      exact ⟨_, by simp [small], written⟩
    · obtain ⟨inside, -⟩ := List.getElem?_eq_some_iff.mp stored
      rw [List.length_append, List.length_singleton] at inside
      rw [List.getElem?_append_left (by omega)] at stored
      obtain ⟨cell, found, holds⟩ := represents.cells i entry stored
      rw [Memory.cell_natCast] at found
      exact ⟨cell, by rw [Vector.getElem?_setIfInBounds_ne (by omega), found], holds⟩

theorem addDerived_represents (name : Bytes) (value : Float32) (now : Int64) :
    ∃ next, memory.addDerived name value now = some next ∧
      next.Represents (addDerived store name value now) := by
  have count := represents.count
  by_cases full : memory.count ≥ maxSensors
  · refine ⟨memory, if_pos full, ?_⟩
    have same : addDerived store name value now = store := by
      have most : ¬ store.data.length < maxSensors := by omega
      exact dif_neg most
    rw [same]
    exact represents
  · obtain ⟨next, appended, pushed⟩ :=
      append_represents represents name value now (not_le.mp full)
    exact ⟨next, by rw [Memory.addDerived, if_neg full, appended], pushed⟩

theorem findFrom_represents (name : Bytes) (left i : Nat)
    (ends : i + left = store.data.length) :
    memory.findFrom name left i = some
      (((store.data.drop i).find? fun entry => entry.sensorName.bytes == name).map
        fun entry => entry.value) := by
  induction left generalizing i with
  | zero =>
      rw [List.drop_eq_nil_of_le (by omega)]
      rfl
  | succ left ih =>
      have inside : i < store.data.length := by omega
      obtain ⟨cell, found, holds⟩ := represents.cells i _ (List.getElem?_eq_getElem inside)
      have next := ih (i + 1) (by omega)
      rw [Nat.cast_succ] at next
      rw [List.drop_eq_getElem_cons inside, List.find?_cons, Memory.findFrom, found]
      simp only [Option.bind_eq_bind, Option.bind_some, holds.name]
      by_cases same : (store.data[i]).sensorName.bytes = name
      · simp [same, holds.value]
      · rw [if_neg same, next, beq_eq_false_iff_ne.mpr same]

theorem findSensor_represents (name : Bytes) :
    memory.findSensor name = some (findSensor store name) := by
  have whole := findFrom_represents represents name store.data.length 0 (Nat.zero_add _)
  rw [List.drop_zero] at whole
  rw [Memory.findSensor, represents.count, Int.toNat_natCast]
  exact whole

theorem computeDerivedMetrics_represents (libm : Libm) (cache : DerivedCache)
    (clock : DerivedClock) :
    ∃ next, memory.computeDerivedMetrics libm cache clock =
        some (next, (computeDerivedMetrics libm store cache clock).2) ∧
      next.Represents (computeDerivedMetrics libm store cache clock).1 := by
  have seen : refreshed cache (findSensor store (ascii "htu21d_temp"))
      (findSensor store (ascii "htu21d_rh")) = refreshCache cache store := rfl
  simp only [Memory.computeDerivedMetrics, computeDerivedMetrics,
    findSensor_represents represents, Option.bind_eq_bind, Option.bind_some, seen]
  by_cases ready : derivable (refreshCache cache store) = true
  · simp only [if_pos ready]
    obtain ⟨first, one, holdsOne⟩ := addDerived_represents represents (ascii "dew_point")
      (dewPoint libm (refreshCache cache store).cachedTemp (refreshCache cache store).cachedRh)
      clock.dewPoint
    obtain ⟨second, two, holdsTwo⟩ := addDerived_represents holdsOne (ascii "heat_index")
      (heatIndex (refreshCache cache store).cachedTemp (refreshCache cache store).cachedRh)
      clock.heatIndex
    obtain ⟨third, three, holdsThree⟩ := addDerived_represents holdsTwo (ascii "abs_humidity")
      (absHumidity libm (refreshCache cache store).cachedTemp
        (refreshCache cache store).cachedRh) clock.absHumidity
    rw [one, Option.bind_some, two, Option.bind_some, three, Option.bind_some]
    exact ⟨third, rfl, holdsThree⟩
  · simp only [if_neg ready]
    exact ⟨memory, rfl, represents⟩

/-- As long as every entry left has room, the loop writes them all. -/
theorem writeFrom_represents (left i : Nat) (written : Bytes)
    (ends : i + left = store.data.length) (room : written.length + 160 * left < payloadCap) :
    memory.writeFrom left i written =
      some (.complete (written ++ entriesText (store.data.drop i))) := by
  induction left generalizing i written with
  | zero =>
      rw [List.drop_eq_nil_of_le (by omega)]
      simp [Memory.writeFrom, entriesText]
  | succ left ih =>
      have inside : i < store.data.length := by omega
      have count := represents.count
      obtain ⟨cell, found, holds⟩ := represents.cells i _ (List.getElem?_eq_getElem inside)
      have last : decide (¬ (i : Int) < memory.count - 1) = (store.data.drop (i + 1)).isEmpty := by
        rw [Bool.eq_iff_iff, decide_eq_true_iff, List.isEmpty_iff, List.drop_eq_nil_iff]
        omega
      have text : cellText (store.data[i]).sensorName.bytes (store.data[i]).value
          (store.data[i]).timestamp (store.data.drop (i + 1)).isEmpty =
            entryText store.data[i] (store.data.drop (i + 1)).isEmpty := rfl
      have short := entryText_length store.data[i] (store.data.drop (i + 1)).isEmpty
      have next := ih (i + 1) (written ++ entryText store.data[i] (store.data.drop (i + 1)).isEmpty)
        (by omega) (by rw [List.length_append]; omega)
      rw [Nat.cast_succ] at next
      rw [List.drop_eq_getElem_cons inside, entriesText, Memory.writeFrom, found]
      simp only [Option.bind_eq_bind, Option.bind_some, holds.name, holds.value, holds.timestamp,
        last, text]
      rw [if_neg (by omega), next, List.append_assoc]

theorem createJsonPayload_represents (now : Int64) :
    memory.createJsonPayload true now =
      some (.returned (.complete (headerText now ++ entriesText store.data)) (ascii "]\x7d")) := by
  have header := headerText_length now
  have entries := store.bounded
  have written := written_length store now
  have cap : payloadCap = 4096 := rfl
  have closing : (ascii "]\x7d").length = 2 := rfl
  simp only [maxSensors] at entries
  have whole := writeFrom_represents represents store.data.length 0 (headerText now)
    (Nat.zero_add _) (by omega)
  rw [Nat.cast_zero, List.drop_zero] at whole
  rw [Memory.createJsonPayload, if_pos rfl, represents.count, Int.toNat_natCast]
  simp only [whole, Option.bind_eq_bind, Option.bind_some, Body.text]
  rw [if_neg (by omega), List.take_of_length_le (by omega)]
  rfl

end

theorem wellFormed_represents (memory : Memory) (wellFormed : memory.WellFormed) :
    ∃ store, memory.Represents store := by
  have entries : ∀ n : Nat, (n : Int) ≤ memory.count → ∃ data : List SensorData,
      data.length = n ∧ ∀ (i : Nat) entry, data[i]? = some entry →
        ∃ cell, memory.cell i = some cell ∧ cell.Holds entry := by
    intro n
    induction n with
    | zero => exact fun _ => ⟨[], rfl, fun i entry stored => by simp at stored⟩
    | succ n ih =>
        intro below
        obtain ⟨data, size, held⟩ := ih (by omega)
        obtain ⟨cell, found, text, rest, bytes, noNul, short⟩ := wellFormed.names n (by omega)
        refine ⟨data ++ [⟨⟨text, short, noNul⟩, cell.value, cell.timestamp⟩], by simp [size], ?_⟩
        intro i entry stored
        by_cases last : i = n
        · subst last
          rw [← size, List.getElem?_concat_length] at stored
          cases stored
          exact ⟨cell, found, text_split cell text rest bytes noNul, rfl, rfl⟩
        · obtain ⟨inside, -⟩ := List.getElem?_eq_some_iff.mp stored
          rw [List.length_append, List.length_singleton] at inside
          rw [List.getElem?_append_left (by omega)] at stored
          exact held i entry stored
  have low := wellFormed.low
  have high := wellFormed.high
  obtain ⟨data, size, held⟩ := entries memory.count.toNat (by omega)
  exact ⟨⟨data, by omega⟩, by simp only [size]; omega, held⟩

/-! ## The threads -/

/-- The same run over the store of the abstract threads. -/
structure Related (state : State) (abstract : CollectorThreads.State) : Prop where
  memory : state.memory.Represents abstract.store
  cache : state.cache = abstract.cache
  listener : state.listener = abstract.listener
  sender : state.sender = abstract.sender
  sound : state.faulted = false

theorem initial_related : Related initial CollectorThreads.initial where
  memory := ⟨rfl, fun i entry stored => by simp [CollectorThreads.initial] at stored⟩
  cache := rfl
  listener := rfl
  sender := rfl
  sound := rfl

section
variable (libm : Libm) {state : State} {abstract : CollectorThreads.State}
  (related : Related state abstract)
include related

theorem appendStep_related (reading : Bytes × Float32) (now : Int64) :
    Related (appendStep state reading now) (CollectorThreads.appendStep abstract reading now) := by
  have count := related.memory.count
  unfold appendStep CollectorThreads.appendStep
  by_cases room : state.memory.count < maxSensors
  · have below : abstract.store.count < maxSensors := by
      rw [DataStore.count]
      omega
    obtain ⟨next, appended, pushed⟩ :=
      append_represents related.memory reading.1 reading.2 now room
    rw [if_pos room, if_pos below, appended]
    exact ⟨pushed, related.cache, rfl, related.sender, related.sound⟩
  · have full : ¬ abstract.store.count < maxSensors := by
      rw [DataStore.count]
      omega
    rw [if_neg room, if_neg full]
    exact ⟨related.memory, related.cache, rfl, related.sender, related.sound⟩

theorem deriveStep_related (clock : DerivedClock) :
    Related (deriveStep libm state clock) (CollectorThreads.deriveStep libm abstract clock) := by
  obtain ⟨next, computed, derived⟩ :=
    computeDerivedMetrics_represents related.memory libm state.cache clock
  rw [deriveStep, computed, related.cache]
  rw [related.cache] at derived
  exact ⟨derived, rfl, related.listener, rfl, related.sound⟩

theorem serialiseStep_related (allocates : Bool) (now : Int64) :
    Related (serialiseStep state allocates now)
      (CollectorThreads.serialiseStep abstract allocates now) := by
  unfold serialiseStep CollectorThreads.serialiseStep
  cases allocates with
  | false => exact ⟨related.memory, related.cache, related.listener, rfl, related.sound⟩
  | true =>
      rw [createJsonPayload_represents related.memory, createJsonPayload_complete]
      exact ⟨related.memory, related.cache, related.listener, rfl, related.sound⟩

/-- Each critical section over the memory is one over the store. -/
theorem step_related (label : Label) (next : State) (moved : step libm state label = some next) :
    ∃ after, CollectorThreads.step libm abstract label = some after ∧ Related next after := by
  have sound : ¬ state.faulted = true := by simp [related.sound]
  -- One case for each critical section; outside them the memory is not touched.
  unfold step at moved
  rw [if_neg sound] at moved
  have listener := related.listener
  have sender := related.sender
  split at moved
  · next datagram listening =>
    rw [listening] at listener
    split at moved
    · next ignored =>
      cases moved
      exact ⟨abstract, by simp only [CollectorThreads.step, ← listener, ignored], related⟩
    · next reading parsed =>
      cases moved
      exact ⟨{ abstract with listener := .appending reading },
        by simp only [CollectorThreads.step, ← listener, parsed],
        related.memory, related.cache, rfl, related.sender, related.sound⟩
  · next now reading appending =>
    cases moved
    rw [appending] at listener
    exact ⟨CollectorThreads.appendStep abstract reading now,
      by simp only [CollectorThreads.step, ← listener], appendStep_related related reading now⟩
  · next testing =>
    cases moved
    rw [testing] at sender
    have nonempty : (0 < state.memory.count) = (0 < abstract.store.count) := by
      rw [related.memory.count, DataStore.count, Int.natCast_pos]
    refine ⟨{ abstract with sender := if 0 < abstract.store.count then .computing else .testing },
      by simp only [CollectorThreads.step, ← sender],
      related.memory, related.cache, related.listener, ?_, related.sound⟩
    simp only [nonempty]
  · next clock computing =>
    cases moved
    rw [computing] at sender
    exact ⟨CollectorThreads.deriveStep libm abstract clock,
      by simp only [CollectorThreads.step, ← sender], deriveStep_related libm related clock⟩
  · next allocates now serialising =>
    cases moved
    rw [serialising] at sender
    exact ⟨CollectorThreads.serialiseStep abstract allocates now,
      by simp only [CollectorThreads.step, ← sender], serialiseStep_related related allocates now⟩
  · next sent sending =>
    cases moved
    rw [sending] at sender
    exact ⟨{ abstract with sender := .resetting sent },
      by simp only [CollectorThreads.step, ← sender],
      related.memory, related.cache, related.listener, rfl, related.sound⟩
  · next sent resetting =>
    cases moved
    rw [resetting] at sender
    -- With `count` 0 no cell stands for an entry.
    have empty : Memory.Represents { state.memory with count := 0 } .reset :=
      ⟨rfl, fun i entry stored => by simp at stored⟩
    exact ⟨{ abstract with
        store := .reset
        sender := if sent then .draining else .testing
        tags := []
        erased := abstract.erased ++ CollectorThreads.serials abstract.tags },
      by simp only [CollectorThreads.step, ← sender], empty, related.cache, related.listener, rfl,
      related.sound⟩
  · next draining =>
    cases moved
    rw [draining] at sender
    exact ⟨{ abstract with sender := .testing },
      by simp only [CollectorThreads.step, ← sender],
      related.memory, related.cache, related.listener, rfl, related.sound⟩
  · cases moved

end

theorem reachable_related (libm : Libm) (state : State)
    (reached : Reachable (step libm) (· = initial) state) :
    ∃ abstract, Related state abstract := by
  refine reachable_invariant (step libm) (· = initial)
    (fun state => ∃ abstract, Related state abstract) ?_ ?_ state reached
  · rintro _ rfl
    exact ⟨_, initial_related⟩
  · rintro before label next ⟨abstract, related⟩ moved
    obtain ⟨after, -, kept⟩ := step_related libm related label next moved
    exact ⟨after, kept⟩

theorem payload_buffer_suffices (libm : Libm) :
    (∀ state, Reachable (step libm) (· = initial) state →
      state.memory.WellFormed ∧ state.faulted = false) ∧
    ∀ memory : Memory, memory.WellFormed → ∀ now, ∃ text,
      memory.createJsonPayload true now =
        some (.returned (.complete text) (ascii "]\x7d")) := by
  constructor
  · intro state reached
    obtain ⟨abstract, related⟩ := reachable_related libm state reached
    exact ⟨represents_wellFormed related.memory, related.sound⟩
  · intro memory wellFormed now
    obtain ⟨store, represents⟩ := wellFormed_represents memory wellFormed
    exact ⟨_, createJsonPayload_represents represents now⟩

/-- The memory at the start. -/
theorem payload_buffer_suffices_initial :
    ∃ text, initial.memory.createJsonPayload true 0 =
      some (.returned (.complete text) (ascii "]\x7d")) := by
  have both := payload_buffer_suffices ⟨Float.log, Float.exp⟩
  exact both.2 _ (both.1 initial ⟨initial, [], rfl, rfl⟩).1 0

end SensorNode.StoreMemory
