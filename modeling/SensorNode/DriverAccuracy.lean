import SensorNode.SensorAccuracy
import SensorNode.Bmp180Pressure
import SensorNode.Dht11Decoding

/-!
The floats that bmp180.c and dht11.c return, and what the clients make of them. Tenths of a degree
and whole pascals survive the way to the store; so does every frame of a DHT11.
-/

namespace SensorNode.DriverAccuracy

open LineStream DecimalText ReadingStore WireFormat SignedWord
open CheckedWord hiding signed
open BinaryValue BinaryArithmetic SensorAccuracy
open Bmp180Temperature Bmp180Pressure
open Dht11Decoding (Sample DHT11Dev DHT11Data Transmission receive byteAt dht11Read frameByte)

/-! ## bmp180.c -/

def celsius (t : Int32) : Float32 := .ofModel (.ofInt32 t) / 10.0

def pascal (p : Int32) : Float32 := .ofModel (.ofInt32 p)

/-- Nothing after a failed access, and where the arithmetic of the code is undefined. -/
def bmp180ReadTemperature (c : Bmp180Calib) (written : Bool) (bus : Bus) : Option Float32 := do
  let rawT ← readRawTemperature written bus
  let t ← compensateTemperature c rawT
  return celsius (.ofInt t)

def bmp180ReadPressure (c : Bmp180Calib) (oss : Oss) (written : Bool) (bus : Bus)
    (answer : Option PressureBytes) : Option Float32 := do
  let rawT ← readRawTemperature written bus
  let rawP ← readRawPressure oss answer
  let p ← compensatePressure c rawT rawP oss
  return pascal (.ofInt p)

theorem ten_number : exactValue 10.0 = some 10 := by
  rw [number_of_unpacked _ .positive 10485760 (-20) (by decide) rfl]
  norm_num [signed]

theorem word_number (number : ℤ) (short : Within (2 ^ 23) number) :
    exactValue (.ofModel (.ofInt32 (.ofInt number))) = some (number : ℚ) := by
  unfold Within at short
  have same : (Int32.ofInt number).toInt = number :=
    Int32.toInt_ofInt_of_le (by omega) (by omega)
  rw [ofInt32_exact _ (by omega), same]

/-- Half a unit in the last place of a quotient below this power. -/
theorem celsius_number (t : ℤ) (short : Within (2 ^ 23) t) (top : ℤ) (normal : -126 ≤ top)
    (bound : |(t : ℚ) / 10| < 2 ^ (top + 1)) :
    ∃ number, exactValue (celsius (.ofInt t)) = some number ∧
      |number - t / 10| ≤ 2 ^ (top - 24) := by
  have size : |(t : ℚ)| ≤ 2 ^ 23 := by
    rw [abs_le]
    unfold Within at short
    constructor <;> exact_mod_cast by omega
  refine closest_error _ _ (div_closest _ _ _ _ (word_number t short) ten_number (by norm_num)
    (fun nonzero => ?_) (under_limit _ ?_)) top normal bound
  · have whole : (t : ℤ) ≠ 0 := by exact_mod_cast nonzero
    have least : (1 : ℚ) ≤ |(t : ℚ)| := by exact_mod_cast Int.one_le_abs whole
    apply over_limit
    rw [abs_div, abs_of_pos (by norm_num : (0 : ℚ) < 10)]
    linarith
  · rw [abs_div, abs_of_pos (by norm_num : (0 : ℚ) < 10)]
    linarith

theorem exactTemperature_within (c : Bmp180Calib) (raw : UInt16)
    (dividable : Dividable c raw.toNat) : Within 4198401 (exactTemperature c raw.toNat) := by
  have within := exactB5_within c raw.toNat dividable.1
  unfold exactTemperature Within at *
  omega

theorem celsius_stored (t : ℤ) (within : Within 4198401 t) :
    ∃ total, Stored (ascii "bmp180_temp") (celsius (.ofInt t)) total ∧
      |total - 10 * t| ≤ 2 ∧ (|t| < 1310720 → total = 10 * t) := by
  have short : Within (2 ^ 23) t := by
    unfold Within at *
    omega
  have named : Named (ascii "bmp180_temp") := by decide
  have size : |(t : ℚ)| ≤ 4198401 := by
    rw [abs_le]
    unfold Within at within
    constructor <;> exact_mod_cast by omega
  by_cases usual : |t| < 1310720
  · obtain ⟨number, denotes, close⟩ := celsius_number t short 16 (by norm_num) (by
      have less : |(t : ℚ)| < 1310720 := by exact_mod_cast usual
      rw [abs_div, abs_of_pos (by norm_num : (0 : ℚ) < 10)]
      norm_num
      linarith)
    refine ⟨10 * t, stored_exact _ named (by decide) _ number denotes _ ?_, by simp, fun _ => rfl⟩
    have tenth : ((10 * t : ℤ) : ℚ) / 100 = t / 10 := by
      push_cast
      ring
    rw [tenth]
    exact close.trans_lt (by norm_num)
  · obtain ⟨number, denotes, close⟩ := celsius_number t short 18 (by norm_num) (by
      rw [abs_div, abs_of_pos (by norm_num : (0 : ℚ) < 10)]
      norm_num
      linarith)
    obtain ⟨total, stored, near⟩ := stored_close _ named (by decide) _ number denotes
    refine ⟨total, stored, ?_, fun less => absurd less usual⟩
    norm_num [abs_le] at close near
    have above : (total : ℚ) < 10 * t + 3 := by linarith
    have below : (10 * t : ℚ) < total + 3 := by linarith
    have above' : total < 10 * t + 3 := by exact_mod_cast above
    have below' : 10 * t < total + 3 := by exact_mod_cast below
    rw [abs_le]
    constructor <;> omega

theorem secondOrder_within (p result : Int) (defined : secondOrder p = some result) :
    Within (2 ^ 23) result := by
  obtain ⟨low, high⟩ := (secondOrder_defined_iff p).mp ⟨result, defined⟩
  simp only [secondOrder, mul_bind_some, add_bind_some, add_some] at defined
  obtain ⟨-, -, -, -, -, -, rfl⟩ := defined
  have square : 0 ≤ shiftRight p 8 * shiftRight p 8 ∧
      shiftRight p 8 * shiftRight p 8 ≤ 841 * 841 := by
    have root : -841 ≤ shiftRight p 8 ∧ shiftRight p 8 ≤ 841 := by
      unfold shiftRight
      omega
    constructor <;> nlinarith only [root]
  generalize shiftRight p 8 * shiftRight p 8 = bend at square
  unfold Within shiftRight
  omega

theorem pascal_stored (p : ℤ) (within : Within (2 ^ 23) p) :
    Stored (ascii "bmp180_pressure_pa") (pascal (.ofInt p)) (100 * p) := by
  refine stored_exact _ (by decide) (by decide) _ p (word_number p within) _ ?_
  push_cast
  rw [mul_div_cancel_left₀ _ (by norm_num), sub_self, abs_zero]
  norm_num

theorem compensatePressure_within (c : Bmp180Calib) (rawT rawP p : Int) (oss : Oss)
    (defined : compensatePressure c rawT rawP oss = some p) : Within (2 ^ 23) p := by
  simp only [compensatePressure, Option.bind_eq_bind, Option.bind_eq_some_iff] at defined
  obtain ⟨b5, -, b6, -, b3, -, b4, -, first, -, last⟩ := defined
  exact secondOrder_within first p last

/-- The formula's tenths of a degree are stored as they are below 131072 degrees, and within two
hundredths above; pascals always are. -/
theorem bmp180_stored (c : Bmp180Calib) (oss : Oss) (written : Bool) (bus : Bus)
    (answer : Option PressureBytes) :
    (∀ temp, bmp180ReadTemperature c written bus = some temp →
      ∃ raw : UInt16, i2cReadWordBe bus 0xF6 = some raw ∧ ∃ total,
        Stored (ascii "bmp180_temp") temp total ∧
        |total - 10 * exactTemperature c raw.toNat| ≤ 2 ∧
        (|exactTemperature c raw.toNat| < 1310720 →
          total = 10 * exactTemperature c raw.toNat)) ∧
    ∀ pa, bmp180ReadPressure c oss written bus answer = some pa →
      ∃ raw : UInt16, i2cReadWordBe bus 0xF6 = some raw ∧
        ∃ rawP p, readRawPressure oss answer = some rawP ∧
          compensatePressure c raw.toNat rawP oss = some p ∧
          Stored (ascii "bmp180_pressure_pa") pa (100 * p) := by
  have word (rawT : Int) (read : readRawTemperature written bus = some rawT) :
      ∃ raw : UInt16, i2cReadWordBe bus 0xF6 = some raw ∧ rawT = raw.toNat := by
    unfold readRawTemperature at read
    split at read
    · obtain ⟨raw, found, same⟩ := Option.map_eq_some_iff.mp read
      exact ⟨raw, found, same.symm⟩
    · cases read
  constructor
  · intro temp read
    simp only [bmp180ReadTemperature, Option.bind_eq_bind, Option.bind_eq_some_iff] at read
    obtain ⟨rawT, answered, t, defined, same⟩ := read
    obtain ⟨raw, found, rfl⟩ := word rawT answered
    obtain rfl := Option.some.inj same
    obtain ⟨dividable, rfl⟩ := (compensateTemperature_some c raw t).mp defined
    exact ⟨raw, found, celsius_stored _ (exactTemperature_within c raw dividable)⟩
  · intro pa read
    simp only [bmp180ReadPressure, Option.bind_eq_bind, Option.bind_eq_some_iff] at read
    obtain ⟨rawT, answered, rawP, delivered, p, defined, same⟩ := read
    obtain ⟨raw, found, rfl⟩ := word rawT answered
    obtain rfl := Option.some.inj same
    exact ⟨raw, found, rawP, p, delivered, defined,
      pascal_stored p (compensatePressure_within c _ rawP p oss defined)⟩

/-! ## dht11.c -/

def decimal (whole tenths : UInt8) : Float32 := whole.toFloat32 + tenths.toFloat32 * 0.1

structure Readings where
  temperatureC : Float32
  humidityRh : Float32

/-- As `Dht11Decoding.dht11Read`, over floats. -/
def dht11ReadFloats (dev : Option DHT11Dev) (data : Option Readings) (valFd : Int)
    (samples : List Sample) : Int × Option Readings :=
  match dev, data with
  | some dev, some old =>
      if dev.pi < 0 then (-1, some old)
      else if valFd < 0 then (-1, some old)
      else
        match receive samples with
        | none => (-1, some old)
        | some buf =>
            if byteAt buf 4 ≠ (byteAt buf 0 + byteAt buf 1 + byteAt buf 2 + byteAt buf 3) % 256 then
              (-1, some old)
            else (0, some
              { humidityRh := decimal (buf.getD 0 0) (buf.getD 1 0)
                temperatureC := decimal (buf.getD 2 0) (buf.getD 3 0) })
  | _, _ => (-1, data)

theorem tenth_number : exactValue 0.1 = some (13421773 / 2 ^ 27) := by
  rw [number_of_unpacked _ .positive 13421773 (-27) (by decide) rfl]
  norm_num [signed]

theorem decimal_stored (name : Bytes) (named : Named name) (short : name.length ≤ 60)
    (whole tenths : UInt8) :
    Stored name (decimal whole tenths) (100 * whole.toNat + 10 * tenths.toNat) := by
  have high : (whole.toNat : ℚ) ≤ 255 := by exact_mod_cast Nat.le_of_lt_succ whole.toNat_lt
  have high' : (tenths.toNat : ℚ) ≤ 255 := by exact_mod_cast Nat.le_of_lt_succ tenths.toNat_lt
  have low : (0 : ℚ) ≤ whole.toNat := Nat.cast_nonneg _
  have low' : (0 : ℚ) ≤ tenths.toNat := Nat.cast_nonneg _
  obtain ⟨product, scaled, near⟩ := closest_error _ _
    (mul_closest _ _ _ _ (ofUInt8_exact tenths) tenth_number (by
      apply under_limit
      rw [abs_of_nonneg (by positivity)]
      linarith)) 4 (by norm_num) (by
      rw [abs_of_nonneg (by positivity)]
      norm_num
      linarith)
  norm_num [abs_le] at near
  obtain ⟨sum, added, near'⟩ := closest_error _ _
    (add_closest _ _ _ _ (ofUInt8_exact whole) scaled (by
      apply under_limit
      rw [abs_lt]
      constructor <;> linarith)) 8 (by norm_num) (by
      rw [abs_lt]
      norm_num
      constructor <;> linarith)
  norm_num [abs_le] at near'
  refine stored_exact name named short _ sum added _ ?_
  rw [abs_lt]
  push_cast
  constructor <;> linarith

section
variable (dev : Option DHT11Dev) (data : Option (DHT11Data × Readings)) (valFd : Int)
variable (samples : List Sample)

/-- Five bytes from an open line, the last the sum of the others. -/
structure Received (buf : List UInt8) : Prop where
  opened : ∃ device, dev = some device ∧ 0 ≤ device.pi
  room : data.isSome = true
  line : 0 ≤ valFd
  received : receive samples = some buf
  adds : byteAt buf 4 = (byteAt buf 0 + byteAt buf 1 + byteAt buf 2 + byteAt buf 3) % 256

theorem read_received (buf : List UInt8) (so : Received dev data valFd samples buf) :
    dht11ReadFloats dev (data.map Prod.snd) valFd samples = (0, some
      { humidityRh := decimal (buf.getD 0 0) (buf.getD 1 0)
        temperatureC := decimal (buf.getD 2 0) (buf.getD 3 0) }) ∧
    dht11Read dev (data.map Prod.fst) valFd samples = (0, some
      { humidityRh := byteAt buf 0 + byteAt buf 1 / 10
        temperatureC := byteAt buf 2 + byteAt buf 3 / 10 }) := by
  obtain ⟨⟨device, rfl, ready⟩, room, line, received, adds⟩ := so
  obtain ⟨old, rfl⟩ := Option.isSome_iff_exists.mp room
  simp only [dht11ReadFloats, dht11Read, Option.map_some, if_neg (not_lt.mpr ready),
    if_neg (not_lt.mpr line), received, if_neg (not_not.mpr adds), and_self]

theorem read_unreceived (none' : ∀ buf, ¬ Received dev data valFd samples buf) :
    dht11ReadFloats dev (data.map Prod.snd) valFd samples = (-1, data.map Prod.snd) ∧
      dht11Read dev (data.map Prod.fst) valFd samples = (-1, data.map Prod.fst) := by
  cases dev with
  | none => exact ⟨rfl, rfl⟩
  | some device =>
      cases data with
      | none => exact ⟨rfl, rfl⟩
      | some old =>
          simp only [dht11ReadFloats, dht11Read, Option.map_some]
          by_cases ready : device.pi < 0
          · rw [if_pos ready, if_pos ready]
            exact ⟨rfl, rfl⟩
          rw [if_neg ready, if_neg ready]
          by_cases line : valFd < 0
          · rw [if_pos line, if_pos line]
            exact ⟨rfl, rfl⟩
          rw [if_neg line, if_neg line]
          cases received : receive samples with
          | none => exact ⟨rfl, rfl⟩
          | some buf =>
              have differs : byteAt buf 4 ≠
                  (byteAt buf 0 + byteAt buf 1 + byteAt buf 2 + byteAt buf 3) % 256 := fun adds =>
                none' buf ⟨⟨device, rfl, not_lt.mp ready⟩, rfl, not_lt.mp line, received, adds⟩
              exact ⟨if_pos differs, if_pos differs⟩

end

theorem decimal_reading (whole tenths : UInt8) :
    ((100 * whole.toNat + 10 * tenths.toNat : ℤ) : ℚ) / 100 = whole.toNat + tenths.toNat / 10 := by
  push_cast
  ring

/-- Whatever arrives on the line, the reading in exact decimals is the reading in the store, and a
failed one leaves the old. The bytes are those of the frame that a sensor sends, at any pace. -/
theorem dht11_stored (dev : Option DHT11Dev) (data : Option (DHT11Data × Readings)) (valFd : Int)
    (samples : List Sample) :
    let ideal := dht11Read dev (data.map Prod.fst) valFd samples
    let result := dht11ReadFloats dev (data.map Prod.snd) valFd samples
    (result.1 = 0 ↔ ∃ buf, Received dev data valFd samples buf) ∧
    (∀ buf, Received dev data valFd samples buf → ∃ floats exact temp rh,
      result = (0, some floats) ∧ ideal = (0, some exact) ∧
      Stored (ascii "dht11_temp") floats.temperatureC temp ∧ temp / 100 = exact.temperatureC ∧
      Stored (ascii "dht11_rh") floats.humidityRh rh ∧ rh / 100 = exact.humidityRh) ∧
    (result.1 ≠ 0 → result = (-1, data.map Prod.snd) ∧ ideal = (-1, data.map Prod.fst)) ∧
    ∀ (frame : Vector UInt8 5) (sent : Transmission frame) (buf : List UInt8),
      samples = sent.stream → Received dev data valFd samples buf → buf = frame.toList := by
  intro ideal result
  have read (buf : List UInt8) (so : Received dev data valFd samples buf) :=
    read_received dev data valFd samples buf so
  refine ⟨⟨fun worked => ?_, fun ⟨buf, so⟩ => congrArg Prod.fst (read buf so).1⟩, fun buf so => ?_,
    fun failed => ?_, fun frame sent buf same so => ?_⟩
  · by_contra none'
    have unread := read_unreceived dev data valFd samples (not_exists.mp none')
    have minus : result.1 = -1 := congrArg Prod.fst unread.1
    omega
  · obtain ⟨floats, exact'⟩ := read buf so
    exact ⟨_, _, _, _, floats, exact',
      decimal_stored (ascii "dht11_temp") (by decide) (by decide) _ _, decimal_reading _ _,
      decimal_stored (ascii "dht11_rh") (by decide) (by decide) _ _, decimal_reading _ _⟩
  · apply read_unreceived dev data valFd samples
    intro buf so
    exact failed (congrArg Prod.fst (read buf so).1)
  · subst same
    exact Option.some.inj (so.received.symm.trans (Dht11Decoding.receive_sent sent))

end SensorNode.DriverAccuracy
