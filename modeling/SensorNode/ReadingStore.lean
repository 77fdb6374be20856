import SensorNode.ScanText

/-!
The data-collector's reading store: `DataStore`, the parse and append of
`socket_listener`, and the derived metrics computed before serialisation. An
entry's name carries the bounds its 64-byte array enforces and a store carries
the bound of its array, so neither can be built in violation. The stale array
cells past `count` are never read and are left out.
-/

namespace SensorNode.ReadingStore

open LineStream DecimalText ScanText

def bufferSize : Nat := 1024
def maxSensors : Nat := 25

/-- The contents of a `char[64]` that holds a C string. -/
structure SensorName where
  bytes : Bytes
  short : bytes.length ≤ 63
  noNul : nul ∉ bytes
  deriving DecidableEq

def SensorName.copy (text : Bytes) : SensorName where
  bytes := (cstring text).take 63
  short := List.length_take_le 63 (cstring text)
  noNul := fun member => nul_notMem_cstring text (List.mem_of_mem_take member)

structure SensorData where
  sensorName : SensorName
  value : Float32
  timestamp : Int64
  deriving DecidableEq

structure DataStore where
  data : List SensorData
  bounded : data.length ≤ maxSensors
  deriving DecidableEq

def DataStore.count (store : DataStore) : Nat := store.data.length

def DataStore.reset : DataStore := ⟨[], Nat.zero_le maxSensors⟩

def DataStore.push (store : DataStore) (entry : SensorData) : DataStore :=
  if room : store.data.length < maxSensors then
    ⟨store.data ++ [entry], by rw [List.length_append]; exact room⟩
  else store

@[simp] theorem DataStore.reset_data : DataStore.reset.data = [] := rfl

theorem DataStore.push_data (store : DataStore) (entry : SensorData) :
    (store.push entry).data =
      if store.data.length < maxSensors then store.data ++ [entry] else store.data := by
  unfold DataStore.push
  split <;> rfl

theorem DataStore.push_extends (store : DataStore) (entry : SensorData) :
    store.data <+: (store.push entry).data := by
  rw [DataStore.push_data]
  split
  · exact List.prefix_append store.data [entry]
  · exact List.prefix_refl store.data

/-! ## socket_listener -/

/-- `sscanf(buffer, "%63[^:]:%f", sensor_name, &value) == 2`. -/
def scanReading (buffer : Bytes) : Option (Bytes × Float32) :=
  match scanUntil 63 58 (cstring buffer) with
  | some (name, 58 :: text) => (scanFloat text).map fun read => (name, read.1)
  | _ => none

/-- One received datagram, up to the append: `recvfrom` keeps 1023 bytes, and a
reading is passed on when both items convert and the value is finite. -/
def parseDatagram (datagram : Bytes) : Option (Bytes × Float32) :=
  if datagram = [] then none
  else (scanReading (datagram.take (bufferSize - 1))).filter fun reading => reading.2.isFinite

def appendReading (store : DataStore) (reading : Bytes × Float32) (now : Int64) : DataStore :=
  store.push ⟨SensorName.copy reading.1, reading.2, now⟩

/-- The effect of one datagram on the store when nothing interleaves with it. -/
def socketListener (store : DataStore) (datagram : Bytes) (now : Int64) : DataStore :=
  match parseDatagram datagram with
  | none => store
  | some reading => appendReading store reading now

/-- Datagrams handled one after the other, each with the clock it was stamped by. -/
def collect (store : DataStore) (datagrams : List (Bytes × Int64)) : DataStore :=
  datagrams.foldl (fun store datagram => socketListener store datagram.1 datagram.2) store

theorem scanReading_name (buffer name : Bytes) (value : Float32)
    (scanned : scanReading buffer = some (name, value)) :
    name.length ≤ 63 ∧ name ≠ [] ∧ nul ∉ name ∧ (58 : UInt8) ∉ name := by
  unfold scanReading at scanned
  split at scanned
  · next item text found =>
    obtain ⟨read, _, same⟩ := Option.map_eq_some_iff.mp scanned
    cases same
    obtain ⟨split, short, present, stop⟩ := scanUntil_item 63 58 _ _ _ found
    refine ⟨short, present, fun member => ?_, stop⟩
    exact nul_notMem_cstring buffer (split ▸ List.mem_append_left _ member)
  · cases scanned

theorem parseDatagram_finite (datagram : Bytes) (reading : Bytes × Float32)
    (parsed : parseDatagram datagram = some reading) : reading.2.isFinite = true := by
  rw [parseDatagram] at parsed
  split at parsed
  · cases parsed
  · exact (Option.filter_eq_some_iff.mp parsed).2

/-! ## Derived metrics -/

/-- The C library's transcendental functions; only their signatures matter here. -/
structure Libm where
  log : Float → Float
  exp : Float → Float

/-- The `static` variables of `compute_derived_metrics`. -/
structure DerivedCache where
  cachedTemp : Float32
  cachedRh : Float32
  haveTemp : Bool
  haveRh : Bool
  deriving DecidableEq

def DerivedCache.initial : DerivedCache := ⟨0, 0, false, false⟩

structure DerivedClock where
  dewPoint : Int64
  heatIndex : Int64
  absHumidity : Int64
  deriving DecidableEq

def findSensor (store : DataStore) (name : Bytes) : Option Float32 :=
  (store.data.find? fun entry => entry.sensorName.bytes == name).map fun entry => entry.value

def addDerived (store : DataStore) (name : Bytes) (value : Float32) (now : Int64) : DataStore :=
  store.push ⟨SensorName.copy name, value, now⟩

/-- The cached readings after looking for newer ones in the store. -/
def refreshCache (cache : DerivedCache) (store : DataStore) : DerivedCache :=
  let seen := match findSensor store (ascii "htu21d_temp") with
    | some temp => { cache with cachedTemp := temp, haveTemp := true }
    | none => cache
  match findSensor store (ascii "htu21d_rh") with
  | some rh => { seen with cachedRh := rh, haveRh := true }
  | none => seen

/-- The guard passes: both values known and the humidity in (0, 100]. -/
def derivable (cache : DerivedCache) : Bool :=
  cache.haveTemp && cache.haveRh && !decide (cache.cachedRh ≤ 0) && !decide (100 < cache.cachedRh)

def dewPoint (libm : Libm) (temp rh : Float32) : Float32 :=
  let gamma := (17.625 * temp.toFloat) / (243.04 + temp.toFloat) + libm.log (rh.toFloat / 100.0)
  (243.04 * gamma / (17.625 - gamma)).toFloat32

def heatIndex (temp rh : Float32) : Float32 :=
  let t := temp.toFloat * 9.0 / 5.0 + 32.0
  let rh := rh.toFloat
  let fahrenheit := -42.379
    + 2.04901523 * t
    + 10.14333127 * rh
    - 0.22475541 * t * rh
    - 0.00683783 * t * t
    - 0.05481717 * rh * rh
    + 0.00122874 * t * t * rh
    + 0.00085282 * t * rh * rh
    - 0.00000199 * t * t * rh * rh
  ((fahrenheit - 32.0) * 5.0 / 9.0).toFloat32

def absHumidity (libm : Libm) (temp rh : Float32) : Float32 :=
  let temp := temp.toFloat
  ((6.112 * libm.exp (17.67 * temp / (temp + 243.5)) * rh.toFloat * 2.1674)
    / (273.15 + temp)).toFloat32

def computeDerivedMetrics (libm : Libm) (store : DataStore) (cache : DerivedCache)
    (clock : DerivedClock) : DataStore × DerivedCache :=
  let cache := refreshCache cache store
  if derivable cache then
    let temp := cache.cachedTemp
    let rh := cache.cachedRh
    let store := addDerived store (ascii "dew_point") (dewPoint libm temp rh) clock.dewPoint
    let store := addDerived store (ascii "heat_index") (heatIndex temp rh) clock.heatIndex
    let store := addDerived store (ascii "abs_humidity") (absHumidity libm temp rh)
      clock.absHumidity
    (store, cache)
  else (store, cache)

theorem computeDerivedMetrics_extends (libm : Libm) (store : DataStore) (cache : DerivedCache)
    (clock : DerivedClock) :
    store.data <+: (computeDerivedMetrics libm store cache clock).1.data := by
  unfold computeDerivedMetrics
  simp only
  split
  · exact ((DataStore.push_extends _ _).trans (DataStore.push_extends _ _)).trans
      (DataStore.push_extends _ _)
  · exact List.prefix_refl store.data

end SensorNode.ReadingStore
