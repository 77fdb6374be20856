import SensorNode.CallHistory
import SensorNode.SensorClients

/-!
Where the datagrams of the sensor clients come from. Whatever the system answers, a message that is
sent says, to the hundredth, what the bytes mean that the sensor gave before: the formula of its
datasheet over the bytes of one measurement, and over the calibration that was read at the start.
A BMP180 pressure goes by the driver's 32-bit arithmetic, an MS5611 pressure by the formula up to
turns of 17 bits.
-/

namespace SensorNode.ReadingOrigin

open LineStream DecimalText DoubleText ReadingStore StepSystem CallProgram CallHistory
open SensorDrivers SensorClients
open Bmp180Temperature (Bmp180Calib exactTemperature compensateTemperature)
open Bmp180Pressure (Oss compensatePressure)
open Htu21dReading (Valid formula)
open SensorAccuracy (Stored converted sensorName)
open DriverAccuracy (celsius pascal Readings)
open PressureCompensation (AdcAnswer Reading exactCompensate exactPressure)
open Dht11Decoding (Sample byteAt)

abbrev Log := History Call Answer

/-- The collector takes the message for so many hundredths under this name. -/
def Says (message name : Bytes) (total : ℤ) : Prop :=
  ∃ stored, parseDatagram message = some (name, stored) ∧ floatHundredths stored = some total

/-- Somewhere in the log. -/
def Somewhere (log : Log) (fits : Log → Prop) : Prop := ∃ part, part <:+: log ∧ fits part

/-- The calls after which a reading is still the last. -/
def settles : Call → Bool
  | .sendto _ _ | .close _ => true
  | _ => false

/-- At the end of the log, but for what was sent or closed since. -/
def Lately (log : Log) (fits : Log → Prop) : Prop :=
  ∃ before part after, log = before ++ part ++ after ∧ fits part ∧
    ∀ entry ∈ after, settles entry.1 = true

def messageOf : Call → Option Bytes
  | .sendto _ message => some message
  | _ => none

/-- What is sent, the log accounts for. -/
def Accounted (accounts : Log → Bytes → Prop) (log : Log) (call : Call) : Prop :=
  ∀ message ∈ messageOf call, accounts log message

/-! ## What the sensors give -/

/-- Two bytes, the most significant first. -/
def word (high low : UInt8) : UInt16 := (high.toUInt16 <<< (8 : UInt16)) ||| low.toUInt16

def commandOf (isTemp : Bool) : UInt8 := if isTemp then 0xF3 else 0xF5

/-- What stands between the command and the read that is taken. -/
def Refused (fd : Int) (entry : Call × Answer) : Prop :=
  (∃ micros, entry.1 = .pause micros) ∨
    entry.1 = .read fd 3 ∧ (entry.2.ret = 3 → ∀ other, ¬ Valid (some entry.2.bytes) other)

/-- The command of a measurement, reads that are refused, and one that the checks let through. -/
def Htu21dMeasured (isTemp : Bool) (raw : UInt16) (part : Log) : Prop :=
  ∃ fd written rest answer,
    part = (.write fd [commandOf isTemp], written) :: rest ++ [(.read fd 3, answer)] ∧
    written.ret = 1 ∧ answer.ret = 3 ∧ Valid (some answer.bytes) raw ∧
    ∀ entry ∈ rest, Refused fd entry

/-- A register named, and its bytes read. -/
def Register (fd : Int) (reg : UInt8) (bytes : Bytes) (part : Log) : Prop :=
  ∃ written answer, part = [(.write fd [reg], written), (.read fd bytes.length, answer)] ∧
    written.ret = 1 ∧ answer.ret = bytes.length ∧ bytes <+: answer.bytes

def RegisterWord (fd : Int) (reg : UInt8) (raw : UInt16) (part : Log) : Prop :=
  ∃ high low, Register fd reg [high, low] part ∧ word high low = raw

/-- The calibration words by their registers, the last read first. -/
def calibrationWords (calib : Bmp180Calib) : List (UInt8 × UInt16) :=
  [(0xBE, calib.md.toUInt16), (0xBC, calib.mc.toUInt16), (0xBA, calib.mb.toUInt16),
    (0xB8, calib.b2.toUInt16), (0xB6, calib.b1.toUInt16), (0xB4, calib.ac6), (0xB2, calib.ac5),
    (0xB0, calib.ac4), (0xAE, calib.ac3.toUInt16), (0xAC, calib.ac2.toUInt16),
    (0xAA, calib.ac1.toUInt16)]

def WordsRead (fd : Int) (words : List (UInt8 × UInt16)) (log : Log) : Prop :=
  ∀ entry ∈ words, Somewhere log (RegisterWord fd entry.1 entry.2)

def TemperatureTaken (fd : Int) (raw : UInt16) (part : Log) : Prop :=
  ∃ written waited rest,
    part = (.write fd [0xF4, 0x2E], written) :: (.pause 4500, waited) :: rest ∧
    written.ret = 2 ∧ RegisterWord fd 0xF6 raw rest

def PressureTaken (fd : Int) (oss : Oss) (rawP : Int) (part : Log) : Prop :=
  ∃ written waited msb lsb xlsb one two three,
    part = (.write fd [0xF4, pressureCommand oss], written) :: (.pause (ossDelayUs oss), waited) ::
      (one ++ two ++ three) ∧
    written.ret = 2 ∧ Register fd 0xF6 [msb] one ∧ Register fd 0xF7 [lsb] two ∧
    Register fd 0xF8 [xlsb] three ∧
    Bmp180Pressure.readRawPressure oss (some ⟨msb, lsb, xlsb⟩) = some rawP

/-- A pressure is read after a temperature of its own. -/
def PressureMeasured (fd : Int) (oss : Oss) (raw : UInt16) (rawP : Int) (part : Log) : Prop :=
  ∃ one two, part = one ++ two ∧ TemperatureTaken fd raw one ∧ PressureTaken fd oss rawP two

/-- A word of the PROM, from the answer to its own command. -/
def PromWord (fd : Int) (log : Log) (n : Nat) (raw : UInt16) : Prop :=
  ∃ answer, (.transfer fd [promCommand n, 0, 0], answer) ∈ log ∧ 0 ≤ answer.ret ∧
    raw = word (answer.bytes.getD 1 0) (answer.bytes.getD 2 0)

def PromRead (fd : Int) (prom : Vector UInt16 8) (log : Log) : Prop :=
  ∀ n : Fin 8, PromWord fd log n prom[n]

def ConversionTaken (fd : Int) (convCmd : UInt8) (bytes : AdcAnswer) (part : Log) : Prop :=
  ∃ started waited answer,
    part = [(.transfer fd [convCmd], started), (.pause 10000, waited),
      (.transfer fd [0, 0, 0, 0], answer)] ∧
    0 ≤ started.ret ∧ 0 ≤ answer.ret ∧
    bytes = ⟨answer.bytes.getD 1 0, answer.bytes.getD 2 0, answer.bytes.getD 3 0⟩

def Gy63Measured (fd : Int) (first second : AdcAnswer) (part : Log) : Prop :=
  ∃ one two, part = one ++ two ∧ ConversionTaken fd 0x48 first one ∧
    ConversionTaken fd 0x58 second two

/-- The samples that the log shows. -/
def samplesOf (part : Log) : List Sample :=
  part.filterMap fun entry =>
    match entry.1 with
    | .read _ _ => some (if entry.2.ret = 1 then entry.2.bytes.head? else none)
    | _ => none

/-- Taken from the value file since it was opened. -/
def Dht11Received (buf : List UInt8) (part : Log) : Prop :=
  ∃ pin opened rest,
    part = (.openFile (pinPath pin ++ ascii "/value") .readOnly, opened) :: rest ∧
    Dht11Decoding.receive (samplesOf rest) = some buf ∧
    byteAt buf 4 = (byteAt buf 0 + byteAt buf 1 + byteAt buf 2 + byteAt buf 3) % 256

/-! ## What a message may say -/

def htu21dAccounts (log : Log) (message : Bytes) : Prop :=
  ∃ isTemp raw total, Lately log (Htu21dMeasured isTemp raw) ∧
    Says message (sensorName isTemp) total ∧
    |(total : ℚ) / 100 - formula isTemp raw| ≤ 1 / 200 + if isTemp then 1 / 2 ^ 15 else 0

def bmp180Accounts (oss : Oss) (log : Log) (message : Bytes) : Prop :=
  ∃ fd calib, WordsRead fd (calibrationWords calib) log ∧
    ((∃ raw total, Lately log (TemperatureTaken fd raw) ∧
      Says message (ascii "bmp180_temp") total ∧
      |total - 10 * exactTemperature calib raw.toNat| ≤ 2 ∧
      (|exactTemperature calib raw.toNat| < 1310720 →
        total = 10 * exactTemperature calib raw.toNat)) ∨
    ∃ raw rawP p, Lately log (PressureMeasured fd oss raw rawP) ∧
      compensatePressure calib raw.toNat rawP oss = some p ∧
      Says message (ascii "bmp180_pressure_pa") (100 * p))

/-- The pressure is off by whole turns of 17 bits, and by none where the formula's result has
as many. -/
def gy63Accounts (log : Log) (message : Bytes) : Prop :=
  ∃ fd prom first second, PromRead fd prom log ∧
    Lately log (Gy63Measured fd first second) ∧
    let exact := exactCompensate prom second.conversion
    let pascals := exactPressure first.conversion exact
    ((∃ total, Says message (ascii "gy63_press_hpa") total ∧ 2 ^ 17 ∣ total - pascals ∧
      (-65536 ≤ pascals → pascals ≤ 65535 → total = pascals)) ∨
      Says message (ascii "gy63_temp") exact.temp)

def dht11Accounts (log : Log) (message : Bytes) : Prop :=
  ∃ buf, Lately log (Dht11Received buf) ∧
    (Says message (ascii "dht11_temp") (100 * byteAt buf 2 + 10 * byteAt buf 3) ∨
      Says message (ascii "dht11_rh") (100 * byteAt buf 0 + 10 * byteAt buf 1))

/-! ## The log grows -/

def Grows (known : Log → Prop) : Prop := ∀ part log, part <:+: log → known part → known log

theorem somewhere_grows (fits : Log → Prop) : Grows fun log => Somewhere log fits := by
  rintro part log within ⟨inner, inside, fit⟩
  exact ⟨inner, inside.trans within, fit⟩

theorem wordsRead_grows (fd : Int) (words : List (UInt8 × UInt16)) :
    Grows (WordsRead fd words) :=
  fun part log within known entry member => somewhere_grows _ part log within (known entry member)

theorem promRead_grows (fd : Int) (prom : Vector UInt16 8) : Grows (PromRead fd prom) := by
  intro part log within known n
  obtain ⟨answer, member, fine, same⟩ := known n
  exact ⟨answer, within.subset member, fine, same⟩

theorem lately_end (log part : Log) (fits : Log → Prop) (fit : fits part) :
    Lately (log ++ part) fits :=
  ⟨log, part, [], (List.append_nil _).symm, fit, List.forall_mem_nil _⟩

theorem lately_suffix (log part : Log) (fits : Log → Prop) (shown : Lately part fits) :
    Lately (log ++ part) fits := by
  obtain ⟨before, inner, after, rfl, fit, settled⟩ := shown
  refine ⟨log ++ before, inner, after, ?_, fit, settled⟩
  simp only [List.append_assoc]

theorem Lately.last {log : Log} {fits : Log → Prop} (shown : Lately log fits) :
    ∃ part, fits part ∧ ∀ other : Log → Prop, other part → Lately log other := by
  obtain ⟨before, part, after, whole, fit, settled⟩ := shown
  exact ⟨part, fit, fun other more => ⟨before, part, after, whole, more, settled⟩⟩

/-- What stays true when something is sent. -/
def Outlasts (known : Log → Prop) : Prop :=
  ∀ log fd message answer, known log → known (log ++ [(.sendto fd message, answer)])

theorem lately_outlasts (fits : Log → Prop) : Outlasts fun log => Lately log fits := by
  rintro log fd message answer ⟨before, part, after, rfl, fit, settled⟩
  refine ⟨before, part, after ++ [_], (List.append_assoc _ _ _), fit, ?_⟩
  exact List.forall_mem_append.mpr ⟨settled, List.forall_mem_singleton.mpr rfl⟩

theorem Grows.append {known : Log → Prop} (grows : Grows known) (log part : Log)
    (holds : known log) : known (log ++ part) :=
  grows log _ (List.prefix_append log part).isInfix holds

theorem Grows.outlasts {known : Log → Prop} (grows : Grows known) : Outlasts known :=
  fun log _ _ _ holds => grows.append log _ holds

theorem Outlasts.and {one two : Log → Prop} (first : Outlasts one) (second : Outlasts two) :
    Outlasts fun log => one log ∧ two log :=
  fun log fd message answer both =>
    ⟨first log fd message answer both.1, second log fd message answer both.2⟩

/-! ## Calls -/

/-- A program of which only the calls are of account, none of which sends. -/
abbrev Silent {Result : Type} (accounts : Log → Bytes → Prop) (program : Device Result) : Prop :=
  Yields (Accounted accounts) (fun _ _ => True) program

section
variable {accounts : Log → Bytes → Prop} {Result : Type} {fits : Result → Log → Prop}

theorem quiet (call : Call) (silent : messageOf call = none) (log : Log) :
    Accounted accounts log call := by
  intro message sent
  rw [silent] at sent
  cases sent

theorem asks {fits : Answer → Log → Prop} (call : Call) (silent : messageOf call = none)
    (fit : ∀ answer, fits answer [(call, answer)]) :
    Yields (Accounted accounts) fits (ask call) := yields_perform call (quiet call silent) fit

theorem asks_bind {next : Answer → Device Result} (call : Call) (silent : messageOf call = none)
    (rest : ∀ answer, Yields (Accounted accounts)
      (fun result part => fits result ((call, answer) :: part)) (next answer)) :
    Yields (Accounted accounts) fits (ask call >>= next) := by
  refine yields_bind (asks call silent fun _ => rfl) ?_
  rintro answer _ rfl
  exact rest answer

theorem finds_ask {next : Answer → Try Result} (call : Call) (silent : messageOf call = none)
    (rest : ∀ answer, Finds (Accounted accounts)
      (fun result part => fits result ((call, answer) :: part)) (next answer)) :
    Finds (Accounted accounts) fits (liftM (ask call) >>= next) :=
  finds_perform call (quiet call silent) rest

/-! ## htu21d.c -/

theorem accepted_valid (isTemp : Bool) (answer : Answer) (value : Float32)
    (taken : accepted isTemp answer = some value) :
    answer.ret = 3 ∧ ∃ raw, Valid (some answer.bytes) raw ∧ value = converted isTemp raw := by
  unfold accepted at taken
  split at taken
  · next high low check bytes =>
    split at taken
    · next checks =>
      obtain ⟨whole, matched, notHigh, notLow⟩ := checks
      refine ⟨whole, _, ⟨high, low, check, congrArg some bytes, matched, rfl, notLow, notHigh⟩, ?_⟩
      exact (Option.some.inj taken).symm
    · cases taken
  · cases taken

theorem refused_invalid (isTemp : Bool) (answer : Answer) (refused : accepted isTemp answer = none)
    (whole : answer.ret = 3) (raw : UInt16) : ¬ Valid (some answer.bytes) raw := by
  rintro ⟨high, low, check, bytes, matched, rfl, notLow, notHigh⟩
  unfold accepted at refused
  rw [Option.some.inj bytes] at refused
  simp only at refused
  rw [if_pos ⟨whole, matched, notHigh, notLow⟩] at refused
  cases refused

theorem attempts_yields (fd : Int) (delayUs : Nat) (isTemp : Bool) (left : Nat) :
    Yields (Accounted accounts) (fun result part => ∀ value ∈ result, ∃ rest answer raw,
      part = rest ++ [(.read fd 3, answer)] ∧ answer.ret = 3 ∧ Valid (some answer.bytes) raw ∧
      value = converted isTemp raw ∧ ∀ entry ∈ rest, Refused fd entry)
      (attempts fd delayUs isTemp left) := by
  induction left with
  | zero =>
      refine yields_pure _ fun value found => ?_
      cases found
  | succ left ih =>
      rw [attempts]
      refine asks_bind (.pause delayUs) rfl fun waited => ?_
      refine asks_bind (.read fd 3) rfl fun answer => ?_
      have paused : Refused fd (.pause delayUs, waited) := .inl ⟨delayUs, rfl⟩
      cases taken : accepted isTemp answer with
      | some value =>
          obtain ⟨whole, raw, valid, same⟩ := accepted_valid isTemp answer value taken
          refine yields_pure _ fun other found => ?_
          obtain rfl := Option.some.inj found
          exact ⟨[(.pause delayUs, waited)], answer, raw, rfl, whole, valid, same,
            List.forall_mem_singleton.mpr paused⟩
      | none =>
          -- A read that is refused joins the wait before it, for the next attempt to go on.
          have passed : Refused fd (.read fd 3, answer) :=
            .inr ⟨rfl, refused_invalid isTemp answer taken⟩
          refine yields_mono ih fun result part fit value found => ?_
          obtain ⟨rest, last, raw, rfl, whole, valid, same, refused⟩ := fit value found
          exact ⟨(.pause delayUs, waited) :: (.read fd 3, answer) :: rest, last, raw, rfl, whole,
            valid, same, List.forall_mem_cons.mpr ⟨paused,
              List.forall_mem_cons.mpr ⟨passed, refused⟩⟩⟩

theorem htu21dRead_yields (fd : Int) (delayUs : Nat) (isTemp : Bool) :
    Yields (Accounted accounts) (fun result part => ∀ value ∈ result, ∃ raw,
      Htu21dMeasured isTemp raw part ∧ raw ≠ 0 ∧ value = converted isTemp raw)
      (htu21dReadMeasurement fd (commandOf isTemp) delayUs isTemp) := by
  refine asks_bind _ rfl fun written => ?_
  split
  · refine yields_pure _ fun value found => ?_
    cases found
  · next sent =>
    refine yields_mono (attempts_yields fd delayUs isTemp 10) fun result part fit value found => ?_
    obtain ⟨rest, answer, raw, rfl, whole, valid, same, refused⟩ := fit value found
    have nonzero : raw ≠ 0 := by
      obtain ⟨-, -, -, -, -, -, notLow, -⟩ := valid
      exact notLow
    exact ⟨raw, ⟨fd, written, rest, answer, rfl, not_not.mp sent, whole, valid, refused⟩, nonzero,
      same⟩

/-! ## bmp180.c -/

theorem i2cReadByte_finds (fd : Int) (reg : UInt8) :
    Finds (Accounted accounts) (fun byte part => Register fd reg [byte] part)
      (i2cReadByte fd reg) := by
  refine finds_ask _ rfl fun written => finds_guard fun sent => ?_
  refine finds_ask _ rfl fun answer => finds_guard fun whole => ?_
  refine finds_ofOption _ fun byte found => ⟨written, answer, rfl, sent, whole, ?_⟩
  obtain ⟨rest, bytes⟩ := List.head?_eq_some_iff.mp found
  exact ⟨rest, bytes.symm⟩

theorem i2cReadWordBe_finds (fd : Int) (reg : UInt8) :
    Finds (Accounted accounts) (RegisterWord fd reg) (i2cReadWordBe fd reg) := by
  refine finds_ask _ rfl fun written => finds_guard fun sent => ?_
  refine finds_ask _ rfl fun answer => finds_guard fun whole => ?_
  refine finds_ofOption _ fun raw found => ?_
  split at found
  · next high low bytes =>
    exact ⟨high, low, ⟨written, answer, rfl, sent, whole, bytes ▸ List.prefix_refl _⟩,
      Option.some.inj found⟩
  · cases found

theorem i2cWriteByte_finds (fd : Int) (reg val : UInt8) :
    Finds (Accounted accounts) (fun _ part => ∃ written,
      part = [(.write fd [reg, val], written)] ∧ written.ret = 2) (i2cWriteByte fd reg val) :=
  finds_ask _ rfl fun written => finds_check fun sent => ⟨written, rfl, sent⟩

theorem readRawTemperature_finds (fd : Int) :
    Finds (Accounted accounts) (fun (rawT : Int) part => ∃ raw : UInt16,
      TemperatureTaken fd raw part ∧ rawT = raw.toNat) (readRawTemperature fd) := by
  refine finds_bind (i2cWriteByte_finds fd 0xF4 0x2E) ?_
  rintro _ _ ⟨written, rfl, sent⟩
  refine finds_ask (.pause 4500) rfl fun waited => ?_
  refine finds_bind (i2cReadWordBe_finds fd 0xF6) fun raw rest read => ?_
  refine finds_pure _ ⟨raw, ⟨written, waited, rest, ?_, sent, read⟩, rfl⟩
  simp

theorem readRawPressure_finds (fd : Int) (oss : Oss) :
    Finds (Accounted accounts) (PressureTaken fd oss) (readRawPressure fd oss) := by
  refine finds_bind (i2cWriteByte_finds fd 0xF4 _) ?_
  rintro _ _ ⟨written, rfl, sent⟩
  refine finds_ask (.pause (ossDelayUs oss)) rfl fun waited => ?_
  refine finds_bind (i2cReadByte_finds fd 0xF6) fun msb one first => ?_
  refine finds_bind (i2cReadByte_finds fd 0xF7) fun lsb two second => ?_
  refine finds_bind (i2cReadByte_finds fd 0xF8) fun xlsb three third => ?_
  refine finds_ofOption _ fun rawP found => ?_
  refine ⟨written, waited, msb, lsb, xlsb, one, two, three, ?_, sent, first, second, third, found⟩
  simp

theorem bmp180ReadTemperature_finds (dev : Bmp180Dev) :
    Finds (Accounted accounts) (fun value part => ∃ (raw : UInt16) (t : Int),
      TemperatureTaken dev.fd raw part ∧
      compensateTemperature dev.calib raw.toNat = some t ∧ value = celsius (.ofInt t))
      (bmp180ReadTemperature dev) := by
  refine finds_bind (readRawTemperature_finds dev.fd) ?_
  rintro _ part ⟨raw, taken, rfl⟩
  refine finds_some fun t same => finds_pure _ ⟨raw, t, ?_, same, rfl⟩
  rwa [List.append_nil]

theorem bmp180ReadPressure_finds (dev : Bmp180Dev) :
    Finds (Accounted accounts) (fun value part => ∃ (raw : UInt16) (rawP p : Int),
      PressureMeasured dev.fd dev.oss raw rawP part ∧
      compensatePressure dev.calib raw.toNat rawP dev.oss = some p ∧ value = pascal (.ofInt p))
      (bmp180ReadPressure dev) := by
  refine finds_bind (readRawTemperature_finds dev.fd) ?_
  rintro _ one ⟨raw, taken, rfl⟩
  refine finds_bind (readRawPressure_finds dev.fd dev.oss) fun rawP two pressed => ?_
  refine finds_some fun p same => finds_pure _
    ⟨raw, rawP, p, ⟨one, two, ?_, taken, pressed⟩, same, rfl⟩
  rw [List.append_nil]

theorem calibrationWord_finds (fd : Int) (reg : UInt8) :
    Finds (Accounted accounts) (RegisterWord fd reg) (calibrationWord fd reg) := by
  refine finds_bind (i2cReadWordBe_finds fd reg) fun raw part read => finds_guard fun _ => ?_
  refine finds_pure _ ?_
  rwa [List.append_nil]

/-- What is found after a log in which something is known, fits the whole. -/
def Gathers (accounts : Log → Bytes → Prop) (known : Log → Prop) (fits : Result → Log → Prop)
    (attempt : Try Result) : Prop :=
  ∀ log, known log →
    Finds (Accounted accounts) (fun result part => fits result (log ++ part)) attempt

theorem gathers_word (fd : Int) (reg : UInt8) (words : List (UInt8 × UInt16))
    {next : UInt16 → Try Result}
    (rest : ∀ raw, Gathers accounts (WordsRead fd ((reg, raw) :: words)) fits (next raw)) :
    Gathers accounts (WordsRead fd words) fits (calibrationWord fd reg >>= next) := by
  intro log known
  refine finds_bind (calibrationWord_finds fd reg) fun raw one read => ?_
  have more : WordsRead fd ((reg, raw) :: words) (log ++ one) := by
    refine List.forall_mem_cons.mpr ⟨⟨one, (List.suffix_append log one).isInfix, read⟩, ?_⟩
    exact (wordsRead_grows fd words).append log one known
  simpa only [List.append_assoc] using rest raw (log ++ one) more

theorem loadCalibration_finds (fd : Int) :
    Finds (Accounted accounts) (fun calib part => WordsRead fd (calibrationWords calib) part)
      (loadCalibration fd) := by
  have gathers : Gathers accounts (WordsRead fd [])
      (fun calib part => WordsRead fd (calibrationWords calib) part) (loadCalibration fd) := by
    unfold loadCalibration
    iterate 11 refine gathers_word fd _ _ fun _ => ?_
    -- The words gathered are those of the struct: the signed ones are cast, not converted.
    intro log known
    refine finds_pure _ ?_
    rwa [List.append_nil]
  exact gathers [] (List.forall_mem_nil _)

theorem bmp180Configure_finds (addr : UInt8) (fd : Int) :
    Finds (Accounted accounts) (fun calib part => WordsRead fd (calibrationWords calib) part)
      (bmp180Configure addr fd) := by
  refine finds_ask (.ioctl fd (.slave addr)) rfl fun selected => finds_guard fun _ => ?_
  refine finds_bind (i2cReadByte_finds fd 0xD0) fun chipId one _ => finds_guard fun _ => ?_
  refine yields_mono (loadCalibration_finds fd) fun result part read calib found => ?_
  exact wordsRead_grows fd _ part _ (List.suffix_append (_ :: one) part).isInfix (read calib found)

/-! ## Opening, reading and sending -/

theorem openDevice_yields {Made Dev : Type} (path : Bytes) (configure : Int → Try Made)
    (device : Int → Made → Dev) {fits : Int → Made → Log → Prop}
    (grows : ∀ fd made, Grows (fits fd made))
    (configured : ∀ fd, Finds (Accounted accounts) (fits fd) (configure fd)) :
    Yields (Accounted accounts) (fun result part => ∀ dev ∈ result, ∃ fd made,
      dev = device fd made ∧ fits fd made part) (openDevice path configure device) := by
  refine asks_bind (.openFile path .readWrite) rfl fun opened => ?_
  split
  · refine yields_pure _ fun dev found => ?_
    cases found
  refine yields_bind (configured opened.ret) fun made one fit => ?_
  cases made with
  | none =>
      refine asks_bind (.close opened.ret) rfl fun _ => yields_pure _ fun dev found => ?_
      cases found
  | some made =>
      refine yields_pure _ fun dev found => ?_
      obtain rfl := Option.some.inj found
      refine ⟨opened.ret, made, rfl, grows _ made one _ ?_ (fit made rfl)⟩
      rw [List.append_nil]
      exact (List.suffix_cons _ one).isInfix

theorem meets_silent {program : Device Result} (silent : Silent accounts program) (log : Log) :
    Meets (recorded (Accounted accounts)) (fun _ _ => True) program log :=
  meets_mono _ _ _ program log (silent log) fun _ _ _ => trivial

theorem closeDescriptor_silent (fd : Int) : Silent accounts (closeDescriptor fd) := by
  unfold closeDescriptor
  split
  · exact asks_bind (.close fd) rfl fun _ => yields_pure _ trivial
  · exact yields_pure _ trivial

theorem sendValue_accounted {known : Log → Prop} (outlasts : Outlasts known) (sock : Int)
    (name text : Bytes) (log : Log) (holds : known log)
    (accounted : ∀ message, WireFormat.sendValue name text = some message →
      accounts log message) :
    Meets (recorded (Accounted accounts)) (fun _ after => known after)
      (sendValue sock name text) log := by
  unfold sendValue
  split
  · next message written =>
    rw [meets_bind]
    refine ⟨fun other same => ?_, fun answer _ => outlasts log _ _ answer holds⟩
    obtain rfl := Option.some.inj same
    exact accounted message written
  · exact holds

section
variable {known : Log → Prop} (grows : Grows known)
include grows

theorem keeps_silent {program : Device Result} (silent : Silent accounts program) :
    Keeps (recorded (Accounted accounts)) known program := by
  intro log holds
  refine meets_mono _ _ _ program log (silent log) ?_
  rintro result _ ⟨part, rfl, -⟩
  exact grows.append log part holds

theorem keeps_report {read : Device (Option Float32)} {reading : Option Float32 → Log → Prop}
    (reads : Yields (Accounted accounts) reading read) (sock : Int) (name : Bytes)
    (accounted : ∀ value message log, known log → Lately log (reading (some value)) →
      WireFormat.sendValue name (printFloat2 value) = some message → accounts log message)
    {rest : Device Unit} (kept : Keeps (recorded (Accounted accounts)) known rest) :
    Keeps (recorded (Accounted accounts)) known
      (read >>= fun result => report sock name result >>= fun _ => rest) := by
  intro log holds
  rw [meets_bind]
  refine meets_mono _ _ _ read log (reads log) ?_
  rintro result _ ⟨part, rfl, fit⟩
  have still := grows.append log part holds
  rw [meets_bind]
  cases result with
  | none => exact kept _ still
  | some value =>
      refine meets_mono _ _ _ _ _ ?_ fun _ after => kept after
      refine sendValue_accounted grows.outlasts sock name _ _ still fun message written => ?_
      exact accounted value message _ still (lately_end log part _ fit) written

end

/-- What is known when the device is open, the passes go by. -/
theorem clientMain_accounts {Dev : Type} (fdOf : Dev → Int) (opening : Device (Option Dev))
    (pass : Dev → Int → Device Unit) (closing : Dev → Device Unit) (count : Nat)
    (known : Dev → Log → Prop) (grows : ∀ dev, Grows (known dev))
    (opens : Yields (Accounted accounts) (fun result part => ∀ dev ∈ result, known dev part)
      opening)
    (kept : ∀ dev sock, Keeps (recorded (Accounted accounts)) (known dev) (pass dev sock))
    (closes : ∀ dev, closing dev = closeDescriptor (fdOf dev)) :
    Meets (recorded (Accounted accounts)) (fun _ _ => True)
      (clientMain opening pass closing count) [] := by
  have closed (dev : Dev) (code : Int) (log : Log) :
      Meets (recorded (Accounted accounts)) (fun _ _ => True)
        (closing dev >>= fun _ => pure code) log := by
    rw [closes]
    exact meets_silent (yields_bind (closeDescriptor_silent (fdOf dev)) fun _ _ _ =>
      yields_pure code trivial) log
  rw [clientMain, meets_bind]
  refine meets_mono _ _ _ opening [] (opens []) ?_
  rintro (_ | dev) log ⟨_, rfl, fit⟩
  · trivial
  have holds : known dev log := fit dev rfl
  rw [meets_bind]
  refine ⟨quiet .socket rfl _, fun sock _ => ?_⟩
  change Meets _ _ (if sock.ret < 0 then _ else _) _
  split
  · exact closed dev 1 _
  · rw [meets_bind]
    refine meets_mono _ _ _ _ _ (keeps_passes (fun _ => kept dev sock.ret) count () _
      ((grows dev).append _ _ holds)) fun _ log _ => ?_
    rw [meets_bind]
    exact ⟨quiet (.close sock.ret) rfl _, fun _ _ => closed dev 0 _⟩

end

/-! ## The clients on a bus -/

theorem stored_says (name : Bytes) (value : Float32) (total : ℤ) (message : Bytes)
    (stored : Stored name value total)
    (written : WireFormat.sendValue name (printFloat2 value) = some message) :
    Says message name total := by
  obtain ⟨other, kept, same, parsed, hundredths⟩ := stored
  obtain rfl := Option.some.inj (written.symm.trans same)
  exact ⟨kept, parsed, hundredths⟩

theorem everything_grows : Grows fun _ => True := fun _ _ _ _ => trivial

theorem rest_keeps {accounts : Log → Bytes → Prop} {known : Log → Prop} (grows : Grows known)
    (micros : Nat) : Keeps (recorded (Accounted accounts)) known
      (ask (.pause micros) >>= fun _ => pure ()) :=
  keeps_silent grows (asks_bind (.pause micros) rfl fun _ => yields_pure () trivial)

theorem htu21d_accounted (isTemp : Bool) (value : Float32) (message : Bytes) (log : Log)
    (shown : Lately log fun part => ∀ found ∈ some value, ∃ raw,
      Htu21dMeasured isTemp raw part ∧ raw ≠ 0 ∧ found = converted isTemp raw)
    (written : WireFormat.sendValue (sensorName isTemp) (printFloat2 value) = some message) :
    htu21dAccounts log message := by
  obtain ⟨part, fit, last⟩ := shown.last
  obtain ⟨raw, measured, nonzero, rfl⟩ := fit value rfl
  obtain ⟨total, stored, close⟩ := SensorAccuracy.converted_stored isTemp raw nonzero
  exact ⟨isTemp, raw, total, last _ measured, stored_says _ _ total message stored written, close⟩

theorem htu21dPass_accounts (fd sock : Int) :
    Keeps (recorded (Accounted htu21dAccounts)) (fun _ => True) (htu21dPass fd sock) := by
  refine keeps_report everything_grows (htu21dRead_yields fd 100000 true) sock _
    (fun value message log _ => htu21d_accounted true value message log) ?_
  refine keeps_report everything_grows (htu21dRead_yields fd 50000 false) sock _
    (fun value message log _ => htu21d_accounted false value message log) ?_
  exact rest_keeps everything_grows _

def Bmp180Known (oss : Oss) (dev : Bmp180Dev) (log : Log) : Prop :=
  dev.oss = oss ∧ WordsRead dev.fd (calibrationWords dev.calib) log

theorem bmp180Known_grows (oss : Oss) (dev : Bmp180Dev) : Grows (Bmp180Known oss dev) :=
  fun part log within known => ⟨known.1, wordsRead_grows dev.fd _ part log within known.2⟩

theorem bmp180Pass_accounts (oss : Oss) (dev : Bmp180Dev) (sock : Int) :
    Keeps (recorded (Accounted (bmp180Accounts oss))) (Bmp180Known oss dev)
      (bmp180Pass dev sock) := by
  have grows := bmp180Known_grows oss dev
  refine keeps_report grows (bmp180ReadTemperature_finds dev) sock _
    (fun value message log known shown written => ?_) ?_
  · obtain ⟨part, fit, last⟩ := shown.last
    obtain ⟨raw, t, taken, defined, rfl⟩ := fit value rfl
    obtain ⟨dividable, rfl⟩ :=
      (Bmp180Temperature.compensateTemperature_some dev.calib raw t).mp defined
    obtain ⟨total, stored, close⟩ := DriverAccuracy.celsius_stored _
      (DriverAccuracy.exactTemperature_within dev.calib raw dividable)
    exact ⟨dev.fd, dev.calib, known.2, .inl ⟨raw, total, last _ taken,
      stored_says _ _ total message stored written, close⟩⟩
  refine keeps_report grows (bmp180ReadPressure_finds dev) sock _
    (fun value message log known shown written => ?_) (rest_keeps grows _)
  obtain ⟨part, fit, last⟩ := shown.last
  obtain ⟨raw, rawP, p, taken, defined, rfl⟩ := fit value rfl
  obtain rfl := known.1
  have stored := DriverAccuracy.pascal_stored p
    (DriverAccuracy.compensatePressure_within dev.calib _ rawP p dev.oss defined)
  exact ⟨dev.fd, dev.calib, known.2, .inr ⟨raw, rawP, p, last _ taken, defined,
    stored_says _ _ _ message stored written⟩⟩

/-! ## gy63.c -/

section
variable {accounts : Log → Bytes → Prop}

theorem spiCmdRead_finds (fd : Int) (cmd : UInt8) (rxLen : Nat) :
    Finds (Accounted accounts) (fun rx part => ∃ answer,
      part = [(.transfer fd (cmd :: List.replicate rxLen 0), answer)] ∧ 0 ≤ answer.ret ∧
      rx = answer.bytes.drop 1) (spiCmdRead fd cmd rxLen) := by
  refine finds_ask (.transfer fd _) rfl fun answer => finds_guard fun fine => ?_
  exact finds_pure _ ⟨answer, rfl, fine, rfl⟩

theorem spiCmd_finds (fd : Int) (cmd : UInt8) :
    Finds (Accounted accounts) (fun _ part => ∃ answer, part = [(.transfer fd [cmd], answer)] ∧
      0 ≤ answer.ret) (spiCmd fd cmd) := by
  refine finds_bind (spiCmdRead_finds fd cmd 0) ?_
  rintro _ _ ⟨answer, rfl, fine, -⟩
  exact finds_pure _ ⟨answer, rfl, fine⟩

theorem ms5611Reset_finds (fd : Int) :
    Finds (Accounted accounts) (fun _ _ => True) (ms5611Reset fd) := by
  refine finds_bind (spiCmd_finds fd 0x1E) fun _ _ _ => ?_
  exact finds_ask (.pause 3000) rfl fun _ => finds_pure _ trivial

theorem ms5611ReadProm_finds (fd : Int) (words : List Nat) :
    Finds (Accounted accounts) (fun prom part => List.Forall₂ (PromWord fd part) words prom)
      (ms5611ReadProm fd words) := by
  induction words with
  | nil => exact finds_pure _ .nil
  | cons n rest ih =>
      refine finds_bind (spiCmdRead_finds fd (promCommand n) 2) ?_
      rintro _ _ ⟨answer, rfl, fine, rfl⟩
      refine finds_bind ih fun words two read => finds_pure _ (.cons ?_ ?_)
      · exact ⟨answer, List.mem_cons_self, fine, by simp [word]⟩
      · refine read.imp fun m raw found => ?_
        obtain ⟨other, member, good, same⟩ := found
        exact ⟨other, by simp [member], good, same⟩

theorem promRead_words (fd : Int) (log : Log) (prom : List UInt16)
    (read : List.Forall₂ (PromWord fd log) (List.range 8) prom) :
    PromRead fd (.ofFn fun n => prom.getD n 0) log := by
  intro n
  have inside : n.val < prom.length := read.length_eq ▸ List.length_range.symm ▸ n.isLt
  have found : PromWord fd log ((List.range 8).get ⟨n.val, by simp⟩) (prom.get ⟨n.val, inside⟩) :=
    read.get _ inside
  simp only [List.get_eq_getElem, List.getElem_range] at found
  obtain ⟨answer, member, fine, same⟩ := found
  refine ⟨answer, member, fine, ?_⟩
  simp [same, inside]

theorem ms5611ReadAdc_finds (fd : Int) (convCmd : UInt8) :
    Finds (Accounted accounts) (ConversionTaken fd convCmd) (ms5611ReadAdc fd convCmd) := by
  refine finds_bind (spiCmd_finds fd convCmd) ?_
  rintro _ _ ⟨started, rfl, fine⟩
  refine finds_ask (.pause 10000) rfl fun waited => ?_
  refine finds_bind (spiCmdRead_finds fd 0x00 3) ?_
  rintro _ _ ⟨answer, rfl, good, rfl⟩
  exact finds_pure _ ⟨started, waited, answer, rfl, fine, good, by simp⟩

theorem gy63Configure_finds (fd : Int) :
    Finds (Accounted accounts) (fun prom part => PromRead fd (.ofFn fun n => prom.getD n 0) part)
      (gy63Configure fd) := by
  refine finds_ask (.ioctl fd .spiMode) rfl fun mode => finds_guard fun _ => ?_
  refine finds_ask (.ioctl fd .spiBitsPerWord) rfl fun bits => finds_guard fun _ => ?_
  refine finds_ask (.ioctl fd .spiMaxSpeed) rfl fun speed => finds_guard fun _ => ?_
  refine finds_bind (ms5611Reset_finds fd) fun _ one _ => ?_
  refine finds_bind (ms5611ReadProm_finds fd (List.range 8)) fun prom two read => ?_
  refine finds_guard fun _ => finds_guard fun _ => finds_pure _ ?_
  refine promRead_grows fd _ two _ ?_ (promRead_words fd two prom read)
  rw [List.append_nil]
  exact (List.suffix_append (_ :: _ :: _ :: one) two).isInfix

theorem gy63Read_finds (dev : GY63Dev) :
    Finds (Accounted accounts) (fun reading part => ∃ first second,
      Gy63Measured dev.spiFd first second part ∧
      PressureCompensation.gy63Read ⟨0, dev.prom⟩ (some first) (some second) = some reading)
      (gy63Read dev) := by
  refine finds_guard fun _ => ?_
  refine finds_bind (ms5611ReadAdc_finds dev.spiFd 0x48) fun first one taken => ?_
  refine finds_bind (ms5611ReadAdc_finds dev.spiFd 0x58) fun second two taken' => ?_
  refine finds_ofOption _ fun reading found => ⟨first, second, ⟨one, two, ?_, taken, taken'⟩,
    found⟩
  rw [List.append_nil]

end

theorem hundredths_says (name : Bytes) (named : WireFormat.Named name) (short : name.length ≤ 14)
    (number : Int32) (small : number.toInt.natAbs < 13107200) (message : Bytes)
    (written : WireFormat.sendValue name (printDouble2 (hundredths number)) = some message) :
    Says message name number.toInt := by
  obtain ⟨same, value, parsed, printed⟩ :=
    ReadingTransit.integer_message name named short number small
  obtain rfl := Option.some.inj (written.symm.trans same)
  have finite : value.isFinite = true := parseDatagram_finite _ (name, value) parsed
  rw [ReadingTransit.printDouble2_exact] at printed
  have denoted := ReadingTransit.printed_hundredths value _ _ finite printed
  rw [ReadingTransit.signOf_apply] at denoted
  exact ⟨value, parsed, denoted⟩

theorem gy63Pass_accounts (interval : UInt32) (dev : GY63Dev) (sock : Int) :
    Keeps (recorded (Accounted gy63Accounts)) (PromRead dev.spiFd dev.prom)
      (gy63Pass interval dev sock) := by
  have grows := promRead_grows dev.spiFd dev.prom
  intro log holds
  rw [gy63Pass, meets_bind]
  refine meets_mono _ _ _ _ log (gy63Read_finds dev log) ?_
  rintro result _ ⟨part, rfl, fit⟩
  have still := grows.append log part holds
  rw [meets_bind]
  cases result with
  | none => exact rest_keeps grows _ _ still
  | some reading =>
      obtain ⟨first, second, taken, computed⟩ := fit reading rfl
      obtain ⟨pressure, temp⟩ :=
        ReadingTransit.gy63Read_bound ⟨0, dev.prom⟩ (some first) (some second) reading computed
      have opened : (0 : Int32) ≤ 0 := by decide
      obtain ⟨degrees, turns, fits⟩ := PressureCompensation.gy63Read_formula ⟨0, dev.prom⟩ first
        second opened reading computed
      have shown := lately_end log part (Gy63Measured dev.spiFd first second) taken
      have more := grows.outlasts.and (lately_outlasts (Gy63Measured dev.spiFd first second))
      refine (meets_bind _ _ _ _ _).mpr ?_
      refine meets_mono _ _ _ _ _ (sendValue_accounted more sock _ _ _ ⟨still, shown⟩
        fun message written => ⟨dev.spiFd, dev.prom, first, second, still, shown,
          .inl ⟨reading.pressurePa.toInt, ?_, turns, fits⟩⟩) fun _ after both => ?_
      · exact hundredths_says _ (by decide) (by decide) _ (by omega) message written
      refine meets_mono _ _ _ _ _ (sendValue_accounted more sock _ _ _ both
        fun message written => ⟨dev.spiFd, dev.prom, first, second, both.1, both.2,
          .inr (degrees ▸ ?_)⟩) fun _ last known => ?_
      · exact hundredths_says _ (by decide) (by decide) _ (by omega) message written
      exact rest_keeps grows _ last known.1

/-! ## dht11.c -/

section
variable {accounts : Log → Bytes → Prop}

theorem sysfsWrite_silent (path val : Bytes) : Silent accounts (sysfsWrite path val) := by
  refine asks_bind (.openFile path .writeOnly) rfl fun opened => ?_
  split
  · exact yields_pure _ trivial
  refine asks_bind (.write opened.ret val) rfl fun written => ?_
  exact asks_bind (.close opened.ret) rfl fun _ => yields_pure _ trivial

theorem awaitPin_silent (path : Bytes) (left : Nat) : Silent accounts (awaitPin path left) := by
  induction left with
  | zero => exact yields_pure _ trivial
  | succ left ih =>
      refine asks_bind (.access path) rfl fun there => ?_
      split
      · exact yields_pure _ trivial
      · exact asks_bind (.pause 10000) rfl fun _ => ih

theorem gpioExport_silent (pin : UInt32) : Silent accounts (gpioExport pin) := by
  refine asks_bind (.access _) rfl fun there => ?_
  split
  · exact yields_pure _ trivial
  · exact yields_bind (sysfsWrite_silent _ _) fun _ _ _ => awaitPin_silent _ 50

theorem gpioUnexport_silent (pin : UInt32) : Silent accounts (gpioUnexport pin) :=
  yields_bind (sysfsWrite_silent _ _) fun _ _ _ => yields_pure _ trivial

theorem gpioSetDirection_silent (pin : UInt32) (dir : Bytes) :
    Silent accounts (gpioSetDirection pin dir) :=
  yields_bind (sysfsWrite_silent _ _) fun _ _ _ => yields_pure _ trivial

theorem gpioWriteVal_silent (pin : UInt32) (val : Bool) : Silent accounts (gpioWriteVal pin val) :=
  yields_bind (sysfsWrite_silent _ _) fun _ _ _ => yields_pure _ trivial

theorem dht11Open_silent (pin : UInt32) : Silent accounts (dht11Open pin) := by
  refine yields_bind (gpioExport_silent pin) fun _ _ _ => ?_
  refine yields_bind (gpioSetDirection_silent pin _) fun _ _ _ => ?_
  refine yields_bind (gpioWriteVal_silent pin true) fun _ _ _ => ?_
  exact asks_bind (.access _) rfl fun _ => yields_pure _ trivial

theorem dht11Close_silent (dev : DHT11Dev) : Silent accounts (dht11Close dev) := by
  refine yields_bind (gpioSetDirection_silent dev.gpioPin _) fun _ _ _ => ?_
  exact yields_bind (gpioUnexport_silent dev.gpioPin) fun _ _ _ => yields_pure _ trivial

theorem samplesOf_append (one two : Log) :
    samplesOf (one ++ two) = samplesOf one ++ samplesOf two :=
  List.filterMap_append

theorem sample_yields (fd : Int) :
    Yields (Accounted accounts) (fun level part => ∃ sample, samplesOf part = [sample] ∧
      level = Dht11Decoding.gpioReadFd sample) (SensorDrivers.gpioReadFd fd) := by
  refine asks_bind (.seek fd) rfl fun _ => asks_bind (.read fd 1) rfl fun answer => ?_
  exact yields_pure _ ⟨_, rfl, rfl⟩

/-- The counter of the code and the samples still to come are one less than the limit. -/
theorem awaitLevel_yields (fd level : Int) (left t : Nat) (total : t + left = 254) :
    Yields (Accounted accounts) (fun reached part => ∀ rest,
      Dht11Decoding.awaitLevel level (UInt8.ofNat t) (samplesOf part ++ rest) = (reached, rest))
      (awaitLevel fd level (left + 1)) := by
  induction left generalizing t with
  | zero =>
      obtain rfl : t = 254 := by omega
      refine yields_bind (sample_yields fd) ?_
      rintro _ one ⟨sample, same, rfl⟩
      split
      · next reached =>
        refine yields_pure _ fun rest => ?_
        rw [List.append_nil, same, List.singleton_append, Dht11Decoding.awaitLevel, if_pos reached]
      · next other =>
        refine asks_bind (.pause 1) rfl fun waited => yields_pure _ fun rest => ?_
        rw [samplesOf_append, same, List.append_assoc, List.singleton_append,
          Dht11Decoding.awaitLevel, if_neg other]
        rfl
  | succ left ih =>
      refine yields_bind (sample_yields fd) ?_
      rintro _ one ⟨sample, same, rfl⟩
      split
      · next reached =>
        refine yields_pure _ fun rest => ?_
        rw [List.append_nil, same, List.singleton_append, Dht11Decoding.awaitLevel, if_pos reached]
      · next other =>
        refine asks_bind (.pause 1) rfl fun waited => ?_
        refine yields_mono (ih (t + 1) (by omega)) fun found part fit rest => ?_
        have counts : UInt8.ofNat t + 1 = UInt8.ofNat (t + 1) := (UInt8.ofNat_add t 1).symm
        rw [samplesOf_append, same, List.append_assoc, List.singleton_append,
          Dht11Decoding.awaitLevel, if_neg other, counts,
          if_neg (Dht11Decoding.counted (t + 1) (by omega))]
        exact fit rest

theorem counter_reads (left t : Nat) (total : t + left = 254) :
    Dht11Decoding.TIMEOUT_US - UInt8.ofNat (left + 1) = UInt8.ofNat t := by
  have limit : Dht11Decoding.TIMEOUT_US.toNat = 255 := rfl
  apply UInt8.toNat_inj.mp
  rw [UInt8.toNat_sub, UInt8.toNat_ofNat', UInt8.toNat_ofNat', limit]
  omega

theorem countLevel_yields (fd level : Int) (left t : Nat) (total : t + left = 254) :
    Yields (Accounted accounts) (fun count part => ∀ rest,
      Dht11Decoding.countLevel level (UInt8.ofNat t) (samplesOf part ++ rest) = (count, rest))
      (countLevel fd level (left + 1)) := by
  induction left generalizing t with
  | zero =>
      obtain rfl : t = 254 := by omega
      refine yields_bind (sample_yields fd) ?_
      rintro _ one ⟨sample, same, rfl⟩
      split
      · next stays =>
        refine asks_bind (.pause 1) rfl fun waited => yields_pure _ fun rest => ?_
        rw [samplesOf_append, same, List.append_assoc, List.singleton_append,
          Dht11Decoding.countLevel, if_pos stays]
        rfl
      · next ends =>
        refine yields_pure _ fun rest => ?_
        rw [List.append_nil, same, List.singleton_append, Dht11Decoding.countLevel, if_neg ends,
          counter_reads _ _ total]
  | succ left ih =>
      refine yields_bind (sample_yields fd) ?_
      rintro _ one ⟨sample, same, rfl⟩
      split
      · next stays =>
        refine asks_bind (.pause 1) rfl fun waited => ?_
        have counts : UInt8.ofNat t + 1 = UInt8.ofNat (t + 1) := (UInt8.ofNat_add t 1).symm
        refine yields_mono (ih (t + 1) (by omega)) fun count part fit rest => ?_
        rw [samplesOf_append, same, List.append_assoc, List.singleton_append,
          Dht11Decoding.countLevel, if_pos stays, counts,
          if_neg (Dht11Decoding.counted (t + 1) (by omega))]
        exact fit rest
      · next ends =>
        refine yields_pure _ fun rest => ?_
        rw [List.append_nil, same, List.singleton_append, Dht11Decoding.countLevel, if_neg ends,
          counter_reads _ _ total]

theorem waitAndMeasure_yields (fd level : Int) :
    Yields (Accounted accounts) (fun t part => ∀ rest,
      Dht11Decoding.waitAndMeasure level (samplesOf part ++ rest) = (t, rest))
      (waitAndMeasure fd level) := by
  refine yields_bind (awaitLevel_yields fd level 254 0 rfl) fun reached one found => ?_
  have comes (rest : List Sample) :
      Dht11Decoding.awaitLevel level 0 (samplesOf one ++ rest) = (reached, rest) := found rest
  cases reached with
  | false =>
      refine yields_pure _ fun rest => ?_
      rw [List.append_nil, Dht11Decoding.waitAndMeasure, comes]
  | true =>
      refine yields_mono (countLevel_yields fd level 254 0 rfl) fun t two counted rest => ?_
      rw [samplesOf_append, List.append_assoc, Dht11Decoding.waitAndMeasure, comes]
      exact counted rest

theorem measured_finds (fd level : Int) :
    Finds (Accounted accounts) (fun t part => t ≠ Dht11Decoding.TIMEOUT_US ∧ ∀ rest,
      Dht11Decoding.waitAndMeasure level (samplesOf part ++ rest) = (t, rest))
      (measured fd level) := by
  refine finds_bind (finds_lift (waitAndMeasure_yields fd level)) fun t one counted => ?_
  refine finds_guard fun inTime => finds_pure _ ⟨inTime, ?_⟩
  rwa [List.append_nil]

/-- The rounds still to come, after those that took the samples before. -/
theorem receiveBits_finds (fd : Int) (left : Nat) (buf : List UInt8) (before : List Sample)
    (few : left ≤ 40) (taken : ∀ rest, Dht11Decoding.receiveBits
      ⟨List.replicate 5 0, before ++ rest⟩ (40 - left) = some ⟨buf, rest⟩) :
    Finds (Accounted accounts) (fun bytes part => ∀ rest, Dht11Decoding.receiveBits
      ⟨List.replicate 5 0, before ++ (samplesOf part ++ rest)⟩ 40 = some ⟨bytes, rest⟩)
      (receiveBits fd buf left) := by
  induction left generalizing buf before with
  | zero => exact finds_pure _ taken
  | succ left ih =>
      rw [receiveBits]
      refine finds_bind (measured_finds fd 0) fun _ one low => ?_
      refine finds_bind (measured_finds fd 1) fun t two high => ?_
      -- The rounds of the code count down what is left; those of `Dht11Decoding` count up.
      have begun : 40 - (left + 1) = 39 - left := by omega
      have step : 40 - left = 39 - left + 1 := by omega
      have bit (rest : List Sample) : Dht11Decoding.receiveBits
          ⟨List.replicate 5 0, before ++ (samplesOf one ++ samplesOf two) ++ rest⟩ (40 - left) =
          some ⟨buf.modify ((39 - left) / 8) fun byte =>
            if Dht11Decoding.BIT_THRESHOLD < t then (byte <<< (1 : UInt8)) ||| 1
            else byte <<< (1 : UInt8), rest⟩ := by
        have so := taken (samplesOf one ++ (samplesOf two ++ rest))
        rw [begun] at so
        rw [step, Dht11Decoding.receiveBits, List.append_assoc, List.append_assoc, so,
          Option.bind_some, Dht11Decoding.receiveBit]
        simp only [low.2, high.2, if_neg low.1, if_neg high.1]
      refine yields_mono (ih _ _ (by omega) bit) fun result part fit bytes found rest => ?_
      have so := fit bytes found rest
      simpa only [samplesOf_append, List.append_assoc] using so

theorem receive_finds (fd : Int) :
    Finds (Accounted accounts) (fun data part => ∃ buf,
      Dht11Decoding.receive (samplesOf part) = some buf ∧
      byteAt buf 4 = (byteAt buf 0 + byteAt buf 1 + byteAt buf 2 + byteAt buf 3) % 256 ∧
      data = ⟨DriverAccuracy.decimal (buf.getD 2 0) (buf.getD 3 0),
        DriverAccuracy.decimal (buf.getD 0 0) (buf.getD 1 0)⟩) (receive fd) := by
  refine finds_bind (measured_finds fd 0) fun _ one low => ?_
  refine finds_bind (measured_finds fd 1) fun _ two high => ?_
  refine finds_bind (receiveBits_finds fd 40 _ [] le_rfl fun rest => rfl) fun buf three bits => ?_
  refine finds_guard fun adds => finds_pure _ ⟨buf, ?_, adds, rfl⟩
  have all := bits []
  simp only [List.nil_append, List.append_nil] at all
  simp only [samplesOf_append, List.append_nil, Dht11Decoding.receive, low.2, high.2, if_neg low.1,
    if_neg high.1, all, Option.map_some]

/-- The file is opened last. -/
theorem gpioOpenValue_yields (pin : UInt32) :
    Yields (Accounted accounts) (fun valFd part => 0 ≤ valFd → ∃ before opened,
      part = before ++ [(.openFile (pinPath pin ++ ascii "/value") .readOnly, opened)])
      (gpioOpenValue pin) := by
  refine asks_bind (.access _) rfl fun there => ?_
  split
  · refine yields_pure _ fun valid => ?_
    cases valid
  · exact asks_bind (.openFile _ .readOnly) rfl fun opened =>
      yields_pure _ fun _ => ⟨[_], opened, rfl⟩

theorem dht11Read_yields (dev : DHT11Dev) :
    Yields (Accounted accounts) (fun result part => ∀ data ∈ result, ∃ buf,
      Lately part (Dht11Received buf) ∧
      data = ⟨DriverAccuracy.decimal (buf.getD 2 0) (buf.getD 3 0),
        DriverAccuracy.decimal (buf.getD 0 0) (buf.getD 1 0)⟩) (dht11Read dev) := by
  unfold dht11Read
  split
  · refine yields_pure _ fun data found => ?_
    cases found
  refine yields_bind (gpioSetDirection_silent _ _) fun _ one _ => ?_
  refine yields_bind (gpioWriteVal_silent _ _) fun _ two _ => ?_
  refine asks_bind (.pause 20000) rfl fun pulse => ?_
  refine yields_bind (gpioWriteVal_silent _ _) fun _ three _ => ?_
  refine asks_bind (.pause 40) rfl fun gap => ?_
  refine yields_bind (gpioSetDirection_silent _ _) fun _ four _ => ?_
  refine yields_bind (gpioOpenValue_yields _) fun valFd five opens => ?_
  split
  · refine yields_pure _ fun data found => ?_
    cases found
  next valid =>
  obtain ⟨before, opened, rfl⟩ := opens (by omega)
  refine yields_bind (receive_finds valFd) fun result six fit => ?_
  refine asks_bind (.close valFd) rfl fun closed => yields_pure _ fun data found => ?_
  obtain ⟨buf, received, adds, same⟩ := fit data found
  refine ⟨buf, ⟨one ++ (two ++ ((.pause 20000, pulse) :: (three ++ ((.pause 40, gap) ::
    (four ++ before))))), _ :: six, [(.close valFd, closed)], ?_,
    ⟨dev.gpioPin, opened, six, rfl, received, adds⟩, List.forall_mem_singleton.mpr rfl⟩, same⟩
  simp only [List.append_assoc, List.cons_append, List.nil_append]

end

theorem decimal_says (name : Bytes) (named : WireFormat.Named name) (short : name.length ≤ 60)
    (whole tenths : UInt8) (message : Bytes) (written : WireFormat.sendValue name
      (printFloat2 (DriverAccuracy.decimal whole tenths)) = some message) :
    Says message name (100 * whole.toNat + 10 * tenths.toNat) :=
  stored_says name _ _ message (DriverAccuracy.decimal_stored name named short whole tenths) written

theorem dht11Pass_accounts (cfg : ClientConfig.Dht11Config) (sock : Int) (state : Nat × DHT11Dev) :
    Keeps (recorded (Accounted dht11Accounts)) (fun _ => True) (dht11Pass cfg sock state) := by
  intro log _
  rw [dht11Pass, meets_bind]
  refine meets_mono _ _ _ _ log (dht11Read_yields state.2 log) ?_
  rintro result _ ⟨part, rfl, fit⟩
  cases result with
  | none =>
      refine keeps_silent everything_grows ?_ _ trivial
      dsimp only
      split
      · refine yields_bind (dht11Close_silent _) fun _ _ _ => asks_bind (.pause _) rfl fun _ => ?_
        refine yields_bind (dht11Open_silent _) fun _ _ _ => asks_bind (.pause _) rfl fun _ => ?_
        exact yields_pure _ trivial
      · exact asks_bind (.pause _) rfl fun _ => yields_pure _ trivial
  | some data =>
      obtain ⟨buf, received, rfl⟩ := fit data rfl
      have outlasts := lately_outlasts (Dht11Received buf)
      have shown := lately_suffix log part _ received
      refine (meets_bind _ _ _ _ _).mpr ?_
      refine meets_mono _ _ _ _ _ (sendValue_accounted outlasts sock _ _ _ shown
        fun message written => ⟨buf, shown, .inl ?_⟩) fun _ after still => ?_
      · exact decimal_says _ (by decide) (by decide) _ _ message written
      refine (meets_bind _ _ _ _ _).mpr ?_
      refine meets_mono _ _ _ _ _ (sendValue_accounted outlasts sock _ _ _ still
        fun message written => ⟨buf, still, .inr ?_⟩) fun _ last _ => ?_
      · exact decimal_says _ (by decide) (by decide) _ _ message written
      exact meets_silent (asks_bind (.pause _) rfl fun _ => yields_pure _ trivial) last

theorem dht11Main_accounts (cfg : ClientConfig.Dht11Config) (count : Nat) :
    Meets (recorded (Accounted dht11Accounts)) (fun _ _ => True) (dht11Main cfg count) [] := by
  have closed (dev : DHT11Dev) (code : Int) : Silent dht11Accounts
      (dht11Close dev >>= fun _ => pure code) :=
    yields_bind (dht11Close_silent dev) fun _ _ _ => yields_pure code trivial
  rw [dht11Main, meets_bind]
  refine meets_mono _ _ _ _ _ (dht11Open_silent cfg.gpioPin []) fun first log _ => ?_
  split
  · trivial
  rw [meets_bind]
  refine ⟨quiet (.pause _) rfl _, fun _ _ => ?_⟩
  refine (meets_bind _ _ _ _ _).mpr ⟨quiet .socket rfl _, fun sock _ => ?_⟩
  change Meets _ _ (if sock.ret < 0 then _ else _) _
  split
  · exact meets_silent (closed first.2 1) _
  · rw [meets_bind]
    refine meets_mono _ _ _ _ _ (keeps_passes (dht11Pass_accounts cfg sock.ret) count _ _ trivial)
      fun last _ _ => ?_
    rw [meets_bind]
    exact ⟨quiet (.close sock.ret) rfl _, fun _ _ => meets_silent (closed last.2 0) _⟩

/-! ## Runs -/

/-- What a client's messages may say. -/
def accountsOf : Client → Log → Bytes → Prop
  | .bmp180 file _ => bmp180Accounts (ClientConfig.bmp180.readConfig file).oss
  | .htu21d _ _ => htu21dAccounts
  | .gy63 _ _ => gy63Accounts
  | .dht11 _ _ => dht11Accounts

theorem main_accounts (client : Client) :
    Meets (recorded (Accounted (accountsOf client))) (fun _ _ => True) client.main [] := by
  cases client with
  | bmp180 file count =>
      refine clientMain_accounts Bmp180Dev.fd _ _ _ count (Bmp180Known _) (bmp180Known_grows _) ?_
        (bmp180Pass_accounts _) fun _ => rfl
      refine yields_mono (openDevice_yields _ _ _ (fun fd calib => wordsRead_grows fd _)
        (bmp180Configure_finds _)) fun result part opened dev found => ?_
      obtain ⟨fd, calib, rfl, read⟩ := opened dev found
      exact ⟨rfl, read⟩
  | htu21d file count =>
      refine clientMain_accounts id _ _ _ count (fun _ _ => True) (fun _ => everything_grows) ?_
        htu21dPass_accounts fun _ => rfl
      have selects (fd : Int) : Finds (Accounted htu21dAccounts) (fun _ _ => True)
          (htu21dSelect (ClientConfig.htu21d.readConfig file).addr fd) :=
        finds_ask (.ioctl fd _) rfl fun _ => finds_check fun _ => trivial
      exact yields_mono (openDevice_yields _ _ _ (fun _ _ => everything_grows) selects)
        fun _ _ _ _ _ => trivial
  | gy63 file count =>
      refine clientMain_accounts GY63Dev.spiFd _ _ _ count (fun dev => PromRead dev.spiFd dev.prom)
        (fun dev => promRead_grows _ _) ?_ (gy63Pass_accounts _) fun _ => rfl
      refine yields_mono (openDevice_yields _ _ _ (fun fd prom => promRead_grows fd _)
        gy63Configure_finds) fun result part opened dev found => ?_
      obtain ⟨fd, prom, rfl, read⟩ := opened dev found
      exact read
  | dht11 file count => exact dht11Main_accounts _ count

end SensorNode.ReadingOrigin
