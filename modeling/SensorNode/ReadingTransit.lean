import SensorNode.DecimalTransit
import SensorNode.DerivedHistory
import SensorNode.PayloadDecode

/-!
What the sensor clients send and what reaches the payloads. The clients with a `float` print its
two decimals; gy63-client prints integers in hundredths, through a `double`. Whatever the two
threads of the collector do in between, an entry of a payload is derived or repeats the text of a
message word for word.
-/

namespace SensorNode.ReadingTransit

open LineStream DecimalText DoubleText ScanText ReadingStore WireFormat
open SignedWord PressureCompensation
open BinaryRounding DecimalTransit
open Float.Model (Format UnpackedFloat)
open Float.Model.UnpackedFloat (Sign)

/-! ## Integers in hundredths -/

def signOf (number : Int) : Sign := if number < 0 then .negative else .positive

theorem ofInt32_denotes (number : Int32) (nonzero : number.toInt ≠ 0) :
    Denotes (UnpackedFloat.unpack Format.binary64
      (UnpackedFloat.pack Format.binary64 (UnpackedFloat.ofInt32 Format.binary64 number)))
        (signOf number.toInt) number.toInt.natAbs := by
  have low : -2 ^ 31 ≤ number.toInt := Int32.le_toInt number
  have high : number.toInt < 2 ^ 31 := Int32.toInt_lt number
  generalize whole : number.toInt = integer at *
  have positive : 0 < integer.natAbs := Int.natAbs_pos.mpr nonzero
  have short : integer.natAbs.log2 ≤ 31 := by
    have bits := (Nat.log2_lt positive.ne').mpr (show integer.natAbs < 2 ^ 32 by omega)
    omega
  have settled (sign : Sign) := round_exact Format.binary64 sign integer.natAbs 0 positive
    (short.trans (by decide)) (by
      rw [show Format.binary64.minExponent = -1074 from rfl]
      show (-1074 : ℤ) ≤ _ - (52 : ℕ)
      omega)
  simp only [zpow_zero, mul_one] at settled
  have converted : UnpackedFloat.ofInt32 Format.binary64 number =
      UnpackedFloat.round Format.binary64 (signOf integer) integer.natAbs 0 := by
    rw [UnpackedFloat.ofInt32, UnpackedFloat.ofInt, whole, UnpackedFloat.normalize, signOf]
    rcases lt_or_gt_of_ne nonzero with negative | above
    · have natural : (-integer).toNat = integer.natAbs := by omega
      rw [compare_lt_iff_lt.mpr negative, if_pos negative, natural]
    · have natural : integer.toNat = integer.natAbs := by omega
      rw [compare_gt_iff_gt.mpr above, if_neg above.not_gt, natural]
  rw [converted]
  apply settled_denotes Format.binary64 (by decide) _ _ _ (settled _)
  have bound : (integer.natAbs : ℚ) < 2 ^ (32 : ℤ) := by
    have natural : integer.natAbs < 2 ^ 32 := by omega
    exact_mod_cast natural
  exact bound.trans (zpow_lt_zpow_right₀ one_lt_two (by decide))

theorem sign_div_positive (sign : Sign) : sign / .positive = sign := by cases sign <;> rfl

theorem integer_log (mantissa whole : ℕ) (exponent : ℤ) (positive : 0 < whole)
    (same : (mantissa : ℚ) * 2 ^ exponent = whole) : 0 ≤ mantissa.log2 + exponent := by
  by_contra negative
  have least : (1 : ℚ) ≤ mantissa * 2 ^ exponent := by
    rw [same]
    exact_mod_cast positive
  have power : (mantissa : ℚ) < 2 ^ (mantissa.log2 + 1) := by
    exact_mod_cast Nat.lt_log2_self (n := mantissa)
  have small : (2 : ℚ) ^ (mantissa.log2 + 1) * 2 ^ exponent ≤ 1 := by
    rw [← zpow_natCast, ← zpow_add₀ two_ne_zero]
    apply zpow_le_one_of_nonpos₀ one_le_two
    push_cast
    omega
  have less := mul_lt_mul_of_pos_right power (zpow_pos (two_pos : (0 : ℚ) < 2) exponent)
  linarith

theorem hundredths_denotes (number : Int32) (nonzero : number.toInt ≠ 0) :
    ∃ magnitude, Denotes (hundredths number).toModel.unpack (signOf number.toInt) magnitude ∧
      |(number.toInt.natAbs : ℚ) / 100 - magnitude| < 1 / 200 := by
  have converted := ofInt32_denotes number nonzero
  have low : -2 ^ 31 ≤ number.toInt := Int32.le_toInt number
  have high : number.toInt < 2 ^ 31 := Int32.toInt_lt number
  have positive : 0 < number.toInt.natAbs := Int.natAbs_pos.mpr nonzero
  have literal : (100.0 : Float).toModel.unpack = hundred := by rfl
  have steps : (hundredths number).toModel.unpack = UnpackedFloat.unpack Format.binary64
      (UnpackedFloat.pack Format.binary64 (UnpackedFloat.div Format.binary64
        (UnpackedFloat.unpack Format.binary64 (UnpackedFloat.pack Format.binary64
          (UnpackedFloat.ofInt32 Format.binary64 number))) (100.0 : Float).toModel.unpack)) := rfl
  -- The quotient is rounded once, from an exact integer and an exact 100.
  rw [steps, literal]
  generalize number.toInt = integer at *
  generalize UnpackedFloat.unpack Format.binary64 (UnpackedFloat.pack Format.binary64
    (UnpackedFloat.ofInt32 Format.binary64 number)) = dividend at converted ⊢
  generalize size : (integer.natAbs : ℚ) = magnitude at converted
  cases converted with
  | zero =>
      have some' : (0 : ℚ) < integer.natAbs := by exact_mod_cast positive
      exact absurd size some'.ne'
  | finite _ mantissa exponent above =>
      have log := integer_log mantissa integer.natAbs exponent positive size.symm
      have hundredLog : (25 * 2 ^ 48 : ℕ).log2 = 52 := by decide +kernel
      obtain ⟨count, place, rounds, settled⟩ := div_rounds Format.binary64 (signOf integer)
        .positive mantissa (25 * 2 ^ 48) exponent (-46) above (by decide) (by
          rw [hundredLog, show Format.binary64.minExponent = -1074 from rfl]
          show (-1074 : ℤ) + (52 : ℕ) < _
          omega)
      have divisor : ((25 * 2 ^ 48 : ℕ) : ℚ) * 2 ^ (-46 : ℤ) = 100 := by norm_num
      rw [divisor, ← size] at rounds
      rw [sign_div_positive] at settled
      rw [← size]
      have number : (integer.natAbs : ℚ) / 100 < 33554432 := by
        have bound : (integer.natAbs : ℚ) ≤ 2 ^ 31 := by
          have natural : integer.natAbs ≤ 2 ^ 31 := by omega
          exact_mod_cast natural
        rw [div_lt_iff₀ (by norm_num)]
        exact bound.trans_lt (by norm_num)
      have inside : (integer.natAbs : ℚ) / 100 < overflow Format.binary64 :=
        calc (integer.natAbs : ℚ) / 100 < 33554432 := number
          _ ≤ 2 ^ 53 - 1 / 2 := by norm_num
          _ ≤ (2 ^ 53 - 1 / 2) * 2 ^ (971 : ℤ) :=
              le_mul_of_one_le_right (by norm_num) (one_le_zpow₀ one_le_two (by norm_num))
      -- Below 2^25 the last place of a `double` is far below a hundredth.
      have fine : (2 : ℚ) ^ place ≤ 1 / 256 := by
        have power := (zpow_lt_zpow_iff_right₀ (one_lt_two : (1 : ℚ) < 2)).mp
          (rounds.binade.low.trans_lt
            (number.trans_eq (show (33554432 : ℚ) = 2 ^ (25 : ℤ) by norm_num)))
        change place + (52 : ℕ) < 25 at power
        exact (zpow_le_zpow_right₀ one_le_two (show place ≤ -8 by omega)).trans_eq (by norm_num)
      have half : (2 : ℚ) ^ place / 2 < 1 / 200 := by linarith
      refine ⟨_, settled_denotes Format.binary64 (by decide) _ _ _ settled
        (rounds_inside _ _ _ _ rounds inside), ?_⟩
      exact (rounds_error _ _ _ _ rounds).trans_lt half

/-- The two decimals of an integer in hundredths are the integer. -/
theorem printDouble2_exact (number : Int32) :
    printDouble2 (hundredths number) =
      signText (signOf number.toInt) ++ fixed2 number.toInt.natAbs := by
  by_cases zero : number.toInt = 0
  · obtain rfl : number = 0 := Int32.toInt_inj.mp zero
    decide +kernel
  · obtain ⟨magnitude, denotes, close⟩ := hundredths_denotes number zero
    apply printFixed2_nearest _ _ magnitude denotes
    apply nearest_of_close
    rw [abs_lt] at close ⊢
    constructor <;> linarith [close.1, close.2]

/-! ## The range of gy63_read -/

theorem pressure_bound (d1 : UInt32) (terms : Terms Int32 Int64) :
    (pressure d1 terms).toInt.natAbs ≤ 65536 := by
  unfold pressure
  generalize (((d1.toUInt64.toInt64 * terms.sens) >>> (21 : Int64)) - terms.off).toInt32 = word
  have shifted := shiftRight32_exact (rfl : word.toInt = word.toInt) 15 (by decide)
  have low : -2 ^ 31 ≤ word.toInt := Int32.le_toInt word
  have high : word.toInt < 2 ^ 31 := Int32.toInt_lt word
  change (word >>> Int32.ofNat 15).toInt.natAbs ≤ 65536
  omega

theorem temp_bound (prom : Vector UInt16 8) (d2 : UInt32) (small : d2.toNat < 2 ^ 24) :
    (compensate prom d2).temp.toInt.natAbs ≤ 264142 := by
  have near : Within 131070 ((exactFirstOrder prom d2.toNat).temp - 2000) := by
    have same : (exactFirstOrder prom d2.toNat).temp - (2000 : Int) =
        (exactFirstOrder prom d2.toNat).dT * prom[6].toNat / 2 ^ 23 := add_sub_cancel_left ..
    rw [same]
    exact temp_within prom d2 small
  have corrects := lowTemperature_corrects _ _ (firstOrder_agrees prom d2 small) near
    (dT_within prom d2 small)
  have less := corrects.t2.2
  have same : (compensate prom d2).temp.toInt = (exactFirstOrder prom d2.toNat).temp -
      (exactLowTemperature (exactFirstOrder prom d2.toNat)).t2 :=
    (compensate_agrees prom d2 small).1.temp
  unfold Within at near less
  omega

theorem gy63Read_bound (dev : GY63Dev) (first second : Option AdcAnswer) (reading : Reading)
    (read : gy63Read dev first second = some reading) :
    reading.pressurePa.toInt.natAbs ≤ 65536 ∧ reading.temp.toInt.natAbs ≤ 264142 := by
  have opened : ¬ dev.spiFd < 0 := by
    intro closed
    rw [gy63Read, if_pos closed] at read
    cases read
  rw [gy63Read, if_neg opened] at read
  cases one : ms5611ReadAdc first with
  | none =>
      rw [one] at read
      cases read
  | some d1 =>
      cases other : ms5611ReadAdc second with
      | none =>
          rw [one, other] at read
          cases read
      | some d2 =>
          rw [one, other] at read
          obtain ⟨bytes, rfl, -⟩ := Option.map_eq_some_iff.mp other
          obtain ⟨word, same, value⟩ := ms5611ReadAdc_some bytes
          obtain rfl := Option.some.inj (other.symm.trans same)
          have small : d2.toNat < 2 ^ 24 := value ▸ conversion_small bytes
          rw [← Option.some.inj read]
          exact ⟨pressure_bound d1 _, temp_bound dev.prom d2 small⟩

/-! ## Messages -/

theorem signOf_apply (number : Int) : (signOf number).apply number.natAbs = number := by
  unfold signOf
  split
  · simp only [Sign.apply]
    omega
  · simp only [Sign.apply]
    omega

theorem printed_hundredths (value : Float32) (sign : Sign) (total : ℕ)
    (finite : value.isFinite = true) (printed : printFloat2 value = signText sign ++ fixed2 total) :
    floatHundredths value = some (sign.apply total) := by
  obtain ⟨number, found⟩ :=
    Option.isSome_iff_exists.mp ((floatHundredths_finite value).trans finite)
  have one := JsonText.parseNumber_printFloat2 value number JsonText.comma [] JsonText.comma_stops
    found
  rw [printed, JsonText.parseNumber_signed sign total _ [] JsonText.comma_stops] at one
  have same := congrArg Prod.fst (Option.some.inj one)
  rw [found]
  congr 1
  exact_mod_cast ((div_left_inj' (by norm_num : (100 : ℚ) ≠ 0)).mp same).symm

theorem integer_message (name : Bytes) (named : Named name) (short : name.length ≤ 14)
    (number : Int32) (small : number.toInt.natAbs < 13107200) :
    sendValue name (printDouble2 (hundredths number)) =
        some (name ++ 58 :: printDouble2 (hundredths number)) ∧
      Transits name (printDouble2 (hundredths number)) := by
  rw [printDouble2_exact]
  have digits := fixed2_length number.toInt.natAbs (small.trans (by decide))
  have signed := signText_length (signOf number.toInt)
  refine ⟨if_pos ?_, small_transits name named _ _ small⟩
  simp only [List.length_append, List.length_cons]
  omega

/-- What gy63_read computes is what the collector stores, hundredth for hundredth. -/
theorem gy63_exact (dev : GY63Dev) (first second : Option AdcAnswer) (reading : Reading)
    (read : gy63Read dev first second = some reading) :
    ∀ sent ∈ [(ascii "gy63_press_hpa", reading.pressurePa), (ascii "gy63_temp", reading.temp)],
      ∃ message value, sendValue sent.1 (printDouble2 (hundredths sent.2)) = some message ∧
        parseDatagram message = some (sent.1, value) ∧
        floatHundredths value = some sent.2.toInt := by
  obtain ⟨pressure, temp⟩ := gy63Read_bound dev first second reading read
  have carried (name : Bytes) (named : Named name) (short : name.length ≤ 14) (number : Int32)
      (small : number.toInt.natAbs < 13107200) :
      ∃ message value, sendValue name (printDouble2 (hundredths number)) = some message ∧
        parseDatagram message = some (name, value) ∧
        floatHundredths value = some number.toInt := by
    obtain ⟨written, value, parsed, printed⟩ := integer_message name named short number small
    have finite : value.isFinite = true := parseDatagram_finite _ (name, value) parsed
    rw [printDouble2_exact] at printed
    have denoted := printed_hundredths value _ _ finite printed
    rw [signOf_apply] at denoted
    exact ⟨_, value, written, parsed, denoted⟩
  intro sent member
  simp only [List.mem_cons, List.not_mem_nil, or_false] at member
  rcases member with rfl | rfl
  · exact carried (ascii "gy63_press_hpa") (by decide) (by decide) reading.pressurePa (by omega)
  · exact carried (ascii "gy63_temp") (by decide) (by decide) reading.temp (by omega)

/-- 590.81 hPa and 20.07 degrees. -/
theorem gy63_exact_calibrated :
    (∃ message value, sendValue (ascii "gy63_press_hpa") (printDouble2 (hundredths 59081)) =
        some message ∧ parseDatagram message = some (ascii "gy63_press_hpa", value) ∧
      floatHundredths value = some 59081) ∧
    ∃ message value, sendValue (ascii "gy63_temp") (printDouble2 (hundredths 2007)) =
        some message ∧ parseDatagram message = some (ascii "gy63_temp", value) ∧
      floatHundredths value = some 2007 := by
  have exact' := gy63_exact calibrated (some ⟨0x6A, 0, 0⟩) (some ⟨0x82, 0xC1, 0x3E⟩)
    ⟨59081, 2007⟩ (by decide)
  exact ⟨exact' (ascii "gy63_press_hpa", 59081) List.mem_cons_self,
    exact' (ascii "gy63_temp", 2007) (List.mem_cons_of_mem _ List.mem_cons_self)⟩

/-- The sensors and the texts their clients write. -/
inductive Sent : Bytes → Bytes → Prop where
  | float (name : Bytes) (sensor : name ∈ floatSensors) (value : Float32) :
      Sent name (printFloat2 value)
  | pressure (dev : GY63Dev) (first second : Option AdcAnswer) (reading : Reading)
      (read : gy63Read dev first second = some reading) :
      Sent (ascii "gy63_press_hpa") (printDouble2 (hundredths reading.pressurePa))
  | temperature (dev : GY63Dev) (first second : Option AdcAnswer) (reading : Reading)
      (read : gy63Read dev first second = some reading) :
      Sent (ascii "gy63_temp") (printDouble2 (hundredths reading.temp))

def sensors : List Bytes := floatSensors ++ [ascii "gy63_press_hpa", ascii "gy63_temp"]

theorem sent_sensor (name text : Bytes) (sent : Sent name text) : name ∈ sensors := by
  cases sent with
  | float name sensor value => exact List.mem_append_left _ sensor
  | pressure => decide
  | temperature => decide

theorem sensors_named : ∀ name ∈ sensors, Named name := by decide

theorem parseDatagram_text (name text : Bytes) (named : Named name) (noNul : nul ∉ text)
    (short : text.length ≤ 959) :
    parseDatagram (name ++ 58 :: text) =
      ((scanFloat text).map fun read => (name, read.1)).filter
        fun reading => reading.2.isFinite := by
  have room := named.short
  have whole : (name ++ 58 :: text).take (bufferSize - 1) = name ++ 58 :: text := by
    apply List.take_of_length_le
    simp only [List.length_append, List.length_cons]
    exact (show _ ≤ 1023 by omega)
  have plain : nul ∉ name ++ 58 :: text := by
    rw [List.mem_append, List.mem_cons, not_or, not_or]
    exact ⟨named.noNul, by decide, noNul⟩
  unfold parseDatagram scanReading
  rw [if_neg (by simp), whole, cstring_self _ plain,
    scanUntil_written 63 58 name text named.present named.short named.noColon]
  rfl

/-- The texts of infinities and NaNs are read as such. -/
theorem infinite_message (name : Bytes) (named : Named name) (value : Float32)
    (infinite : value.isFinite = false) :
    parseDatagram (name ++ 58 :: printFloat2 value) = none := by
  have texts : printFloat2 value ∈ [ascii "inf", ascii "-inf", ascii "nan"] := by
    unfold Float32.isFinite Float32.Model.isFinite at infinite
    unfold printFloat2
    cases unpacked : value.toModel.unpack with
    | finite sign mantissa exponent positive => simp [unpacked, UnpackedFloat.isFinite] at infinite
    | zero sign => simp [unpacked, UnpackedFloat.isFinite] at infinite
    | infinity sign => cases sign <;> decide
    | notANumber => decide
  have rejected : ∀ text ∈ [ascii "inf", ascii "-inf", ascii "nan"],
      nul ∉ text ∧ text.length ≤ 959 ∧ (scanFloat text).all fun read => !read.1.isFinite := by
    decide +kernel
  obtain ⟨noNul, short, unfit⟩ := rejected _ texts
  rw [parseDatagram_text name _ named noNul short]
  cases scanned : scanFloat (printFloat2 value) with
  | none => rfl
  | some read =>
      rw [scanned] at unfit
      simpa using unfit

theorem sent_parsed (name text : Bytes) (sent : Sent name text) (reading : Bytes × Float32)
    (parsed : parseDatagram (name ++ 58 :: text) = some reading) :
    reading.1 = name ∧ printFloat2 reading.2 = text := by
  have named := sensors_named name (sent_sensor name text sent)
  have carried (transits : Transits name text) :
      reading.1 = name ∧ printFloat2 reading.2 = text := by
    obtain ⟨value, same, printed⟩ := transits
    obtain rfl := Option.some.inj (parsed.symm.trans same)
    exact ⟨rfl, printed⟩
  cases sent with
  | float name sensor value =>
      cases finite : value.isFinite with
      | true => exact carried (float_transits name named value finite)
      | false =>
          rw [infinite_message name named value finite] at parsed
          cases parsed
  | pressure dev first second reading read =>
      have bound := (gy63Read_bound dev first second reading read).1
      exact carried (integer_message _ named (by decide) _ (by omega)).2
  | temperature dev first second reading read =>
      have bound := (gy63Read_bound dev first second reading read).2
      exact carried (integer_message _ named (by decide) _ (by omega)).2

/-! ## Runs of the collector -/

open StepSystem CollectorThreads DerivedHistory PayloadText PayloadDecode

/-- Every datagram is one that a client sends. -/
def FromClients (label : Label) : Prop :=
  ∀ datagram, label = .receive datagram →
    ∃ name text, Sent name text ∧ sendValue name text = some datagram

/-- A message of that name has been received, and the value prints as its text. -/
def Repeats (past : List Label) (name : Bytes) (value : Float32) : Prop :=
  ∃ text, Sent name text ∧ Label.receive (name ++ 58 :: text) ∈ past ∧ printFloat2 value = text

def Attributed (past : List Label) (entry : SensorData) : Prop :=
  entry.sensorName.bytes ∈ derivedNames ∨ Repeats past entry.sensorName.bytes entry.value

/-- Whatever stands in the state goes back to a datagram or to a derivation. -/
structure Carried (past : List Label) (state : State) : Prop where
  pending : ∀ reading, state.listener = .appending reading →
    Repeats past reading.1 reading.2
  stored : ∀ entry ∈ state.store.data, Attributed past entry
  sent : ∀ payload ∈ state.payloads, ∃ store now, payload.text = payloadText store now ∧
    ∀ entry ∈ store.data, Attributed past entry

theorem repeats_later (past : List Label) (label : Label) (name : Bytes) (value : Float32)
    (repeats : Repeats past name value) : Repeats (past ++ [label]) name value := by
  obtain ⟨text, sent, received, printed⟩ := repeats
  exact ⟨text, sent, List.mem_append_left _ received, printed⟩

theorem attributed_later (past : List Label) (label : Label) (entry : SensorData)
    (attributed : Attributed past entry) : Attributed (past ++ [label]) entry :=
  attributed.imp_right (repeats_later past label _ _)

theorem carried_later (past : List Label) (label : Label) (state : State)
    (carried : Carried past state) : Carried (past ++ [label]) state := by
  refine ⟨fun reading busy => repeats_later past label _ _ (carried.pending reading busy),
    fun entry member => attributed_later past label entry (carried.stored entry member),
    fun payload member => ?_⟩
  obtain ⟨store, now, text, attributed⟩ := carried.sent payload member
  exact ⟨store, now, text, fun entry inStore =>
    attributed_later past label entry (attributed entry inStore)⟩

theorem received_repeats (past : List Label) (datagram : Bytes) (reading : Bytes × Float32)
    (client : FromClients (.receive datagram)) (parsed : parseDatagram datagram = some reading) :
    Repeats (past ++ [.receive datagram]) reading.1 reading.2 := by
  obtain ⟨name, text, sent, written⟩ := client datagram rfl
  obtain ⟨-, same⟩ := Option.ite_none_right_eq_some.mp written
  obtain rfl := Option.some.inj same
  obtain ⟨rfl, printed⟩ := sent_parsed name text sent reading parsed
  exact ⟨text, sent, List.mem_append_right _ List.mem_cons_self, printed⟩

theorem carried_append (past : List Label) (state : State) (reading : Bytes × Float32)
    (now : Int64) (carried : Carried past state) (appending : state.listener = .appending reading) :
    Carried past (appendStep state reading now) := by
  obtain ⟨text, sent, received, printed⟩ := carried.pending reading appending
  have named := sensors_named reading.1 (sent_sensor reading.1 text sent)
  have copied : (SensorName.copy reading.1).bytes = reading.1 := by
    change (cstring reading.1).take 63 = reading.1
    rw [cstring_self reading.1 named.noNul, List.take_of_length_le named.short]
  have idle (other : Bytes × Float32) (busy : Listener.receiving = .appending other) :
      Repeats past other.1 other.2 := by cases busy
  unfold appendStep
  split
  · refine ⟨idle, fun entry member => ?_, carried.sent⟩
    simp only [appendReading, DataStore.push_data] at member
    split at member
    · rcases List.mem_append.mp member with before | new
      · exact carried.stored entry before
      · obtain rfl := List.mem_singleton.mp new
        refine .inr ⟨text, ?_, ?_, printed⟩
        · rw [copied]
          exact sent
        · rw [copied]
          exact received
    · exact carried.stored entry member
  · exact ⟨idle, carried.stored, carried.sent⟩

theorem carried_derive (libm : Libm) (past : List Label) (state : State) (clock : DerivedClock)
    (carried : Carried past state) : Carried past (deriveStep libm state clock) := by
  refine ⟨carried.pending, fun entry member => ?_, carried.sent⟩
  have data : (deriveStep libm state clock).store.data = _ :=
    computed_data libm state.store state.cache clock
  rw [data] at member
  rcases List.mem_append.mp member with before | new
  · exact carried.stored entry before
  · split at new
    · exact .inl (derivedEntries_names libm _ clock entry (List.mem_of_mem_take new))
    · cases new

theorem carried_serialise (past : List Label) (state : State) (memory : Bool) (now : Int64)
    (carried : Carried past state) : Carried past (serialiseStep state memory now) := by
  unfold serialiseStep
  cases returned : createJsonPayload memory state.store now with
  | none => exact ⟨carried.pending, carried.stored, carried.sent⟩
  | some text =>
      refine ⟨carried.pending, carried.stored, fun payload member => ?_⟩
      rcases List.mem_append.mp member with before | new
      · exact carried.sent payload before
      · obtain rfl := List.mem_singleton.mp new
        exact ⟨state.store, now, createJsonPayload_some memory state.store now text returned,
          carried.stored⟩

theorem carried_step (libm : Libm) (past : List Label) (state : State) (label : Label)
    (next : State) (carried : Carried past state) (client : FromClients label)
    (moved : step libm state label = some next) : Carried (past ++ [label]) next := by
  have later := carried_later past label state carried
  cases step_moves libm state label next moved with
  | ignored => exact later
  | received datagram reading receiving parsed =>
      refine ⟨fun other busy => ?_, later.stored, later.sent⟩
      obtain rfl : reading = other := Listener.appending.inj busy
      exact received_repeats past datagram reading client parsed
  | append reading now appending => exact carried_append _ state reading now later appending
  | derive clock computing => exact carried_derive libm _ state clock later
  | serialise memory now serialising => exact carried_serialise _ state memory now later
  | reset => exact ⟨later.pending, fun _ none => absurd none List.not_mem_nil, later.sent⟩
  | _ => exact ⟨later.pending, later.stored, later.sent⟩

theorem attributed_printed (past : List Label) (entry : SensorData)
    (attributed : Attributed past entry) (finite : entry.value.isFinite = true) :
    Printed entry := by
  have plain : ∀ name ∈ sensors ++ derivedNames, Printable name ∧ JsonText.Plain name := by decide
  have known : entry.sensorName.bytes ∈ sensors ++ derivedNames := by
    rcases attributed with derived | ⟨text, sent, -⟩
    · exact List.mem_append_right _ derived
    · exact List.mem_append_left _ (sent_sensor _ text sent)
  obtain ⟨printable, unescaped⟩ := plain _ known
  exact ⟨utf8_printable _ printable, unescaped, finite⟩

/-- Fed by the clients alone, the collector sends what they sent: an entry of a payload is derived,
or has the name and prints the text of a message received; if all values are finite the payload is
a document that says so. -/
theorem payloads_repeat (libm : Libm) (labels : List Label) (state : State)
    (clients : ∀ label ∈ labels, FromClients label)
    (ran : exec (step libm) initial labels = some state) :
    ∀ payload ∈ state.payloads, ∃ store now, payload.text = payloadText store now ∧
      (∀ entry ∈ store.data, Attributed labels entry) ∧
      ((∀ entry ∈ store.data, entry.value.isFinite = true) → Faithful store payload.text) := by
  have start : Carried [] initial :=
    ⟨nofun, fun _ none => absurd none List.not_mem_nil, fun _ none => absurd none List.not_mem_nil⟩
  have carried := exec_past_invariant (step libm) FromClients Carried (carried_step libm) [] initial
    state labels start clients ran
  intro payload member
  obtain ⟨store, now, text, attributed⟩ := carried.sent payload member
  refine ⟨store, now, text, attributed, fun finite => ?_⟩
  rw [text]
  exact payload_faithful store now fun entry inStore =>
    attributed_printed labels entry (attributed entry inStore) (finite entry inStore)

/-- A temperature of 21.37 degrees on its way into a payload. -/
theorem payloads_repeat_temp : ∃ state,
    exec (step ⟨Float.log, Float.exp⟩) initial [.receive (ascii "bmp180_temp:21.37"), .append 7,
      .test, .derive ⟨8, 8, 8⟩, .serialise true 9] = some state ∧ state.payloads.length = 1 ∧
      ∀ payload ∈ state.payloads, ∃ store now, payload.text = payloadText store now ∧
        ∀ entry ∈ store.data, Attributed [.receive (ascii "bmp180_temp:21.37"), .append 7, .test,
          .derive ⟨8, 8, 8⟩, .serialise true 9] entry := by
  have built : (exec (step ⟨Float.log, Float.exp⟩) initial
      [.receive (ascii "bmp180_temp:21.37"), .append 7, .test, .derive ⟨8, 8, 8⟩,
        .serialise true 9]).map (fun state => state.payloads.length) = some 1 := by decide +kernel
  obtain ⟨state, ran, count⟩ := Option.map_eq_some_iff.mp built
  refine ⟨state, ran, count, fun payload member => ?_⟩
  obtain ⟨store, now, text, attributed, -⟩ := payloads_repeat _ _ state (fun label inLabels => by
    intro datagram same
    subst same
    simp only [List.mem_cons, Label.receive.injEq, reduceCtorEq, List.not_mem_nil,
      or_false] at inLabels
    subst inLabels
    exact ⟨ascii "bmp180_temp", ascii "21.37", .float _ (by decide) 21.37, by decide⟩) ran payload
      member
  exact ⟨store, now, text, attributed⟩

end SensorNode.ReadingTransit
