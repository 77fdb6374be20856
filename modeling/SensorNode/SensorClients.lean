import SensorNode.ClientConfig
import SensorNode.SensorDrivers

/-!
The four sensor clients from the first call to the last, whatever the system answers. Every call on
a descriptor is made on an open one, no result is fetched before the sensor has had the time for
it, and what goes to the collector is the text of a reading. The log file, a stream that every
client writes and that bmp180-client and htu21d-client do not close when they fail to start, is not
among the descriptors that are followed.
-/

namespace SensorNode.SensorClients

open LineStream DecimalText DoubleText StepSystem CallProgram SensorDrivers
open ClientConfig (Bmp180Config Htu21dConfig Gy63Config Dht11Config)
open Bmp180Pressure (Oss)
open PressureCompensation (Reading)
open DriverAccuracy (Readings)
open ReadingTransit (Sent)

/-! ## The programs -/

def sendValue (sock : Int) (name text : Bytes) : Device Unit :=
  match WireFormat.sendValue name text with
  | some message => do
      let _ ← ask (.sendto sock message)
      return ()
  | none => return ()

def report (sock : Int) (name : Bytes) : Option Float32 → Device Unit
  | some value => sendValue sock name (printFloat2 value)
  | none => return ()

/-- `main` of a client that opens its sensor, then a socket; `count` passes find `running` set. -/
def clientMain {Dev : Type} (opening : Device (Option Dev)) (pass : Dev → Int → Device Unit)
    (closing : Dev → Device Unit) (count : Nat) : Device Int := do
  match ← opening with
  | none => return 1
  | some dev =>
      let sock ← ask .socket
      if sock.ret < 0 then
        closing dev
        return 1
      else
        passes (fun _ => pass dev sock.ret) count ()
        let _ ← ask (.close sock.ret)
        closing dev
        return 0

def bmp180Pass (dev : Bmp180Dev) (sock : Int) : Device Unit := do
  report sock (ascii "bmp180_temp") (← (bmp180ReadTemperature dev).run)
  report sock (ascii "bmp180_pressure_pa") (← (bmp180ReadPressure dev).run)
  let _ ← ask (.pause (seconds 10))
  return ()

def bmp180Main (cfg : Bmp180Config) : Nat → Device Int :=
  clientMain (bmp180Open (cstring cfg.i2cDev.toList) cfg.addr cfg.oss) bmp180Pass bmp180Close

def htu21dPass (fd sock : Int) : Device Unit := do
  report sock (ascii "htu21d_temp") (← htu21dReadTemperature fd)
  report sock (ascii "htu21d_rh") (← htu21dReadHumidity fd)
  let _ ← ask (.pause (seconds 10))
  return ()

def htu21dMain (cfg : Htu21dConfig) : Nat → Device Int :=
  clientMain (htu21dOpen (cstring cfg.i2cDev.toList) cfg.addr) htu21dPass htu21dClose

def gy63Report (sock : Int) : Option Reading → Device Unit
  | some reading => do
      sendValue sock (ascii "gy63_press_hpa") (printDouble2 (hundredths reading.pressurePa))
      sendValue sock (ascii "gy63_temp") (printDouble2 (hundredths reading.temp))
  | none => return ()

def gy63Pass (interval : UInt32) (dev : GY63Dev) (sock : Int) : Device Unit := do
  gy63Report sock (← (gy63Read dev).run)
  let _ ← ask (.pause (seconds interval.toNat))
  return ()

def gy63Main (cfg : Gy63Config) : Nat → Device Int :=
  clientMain (gy63Open (cstring cfg.spiDev.toList)) (gy63Pass cfg.interval) gy63Close

/-- With `consecutive_errors` and the device; the fifth failure in a row opens it again. -/
def dht11Pass (cfg : Dht11Config) (sock : Int) (state : Nat × DHT11Dev) :
    Device (Nat × DHT11Dev) := do
  match ← dht11Read state.2 with
  | some data =>
      sendValue sock (ascii "dht11_temp") (printFloat2 data.temperatureC)
      sendValue sock (ascii "dht11_rh") (printFloat2 data.humidityRh)
      let _ ← ask (.pause (seconds cfg.interval.toNat))
      return (0, state.2)
  | none =>
      if 5 ≤ state.1 + 1 then
        let _ ← dht11Close state.2
        let _ ← ask (.pause (seconds 2))
        let again ← dht11Open cfg.gpioPin
        let _ ← ask (.pause (seconds cfg.interval.toNat))
        return (0, again.2)
      else
        let _ ← ask (.pause (seconds 2))
        return (state.1 + 1, state.2)

def dht11Main (cfg : Dht11Config) (count : Nat) : Device Int := do
  let opened ← dht11Open cfg.gpioPin
  if opened.1 < 0 then return 1
  else
    let _ ← ask (.pause (seconds 1))
    let sock ← ask .socket
    if sock.ret < 0 then
      let _ ← dht11Close opened.2
      return 1
    else
      let last ← passes (dht11Pass cfg sock.ret) count (0, opened.2)
      let _ ← ask (.close sock.ret)
      let _ ← dht11Close last.2
      return 0

/-! ## What is in order -/

inductive Work where
  | reset
  | conversion
  deriving DecidableEq

/-- What the sensor is at, the microseconds it takes and those still to wait for. -/
structure Pending where
  work : Work
  need : Nat
  left : Nat
  deriving DecidableEq

/-- Whether a result can be fetched again at once, after as long a wait, or not at all. -/
inductive Leaves where
  | kept
  | renewed
  | spent
  deriving DecidableEq

/-- The calls that bytes go to a sensor or come from it in. -/
def reaches : Call → Bool
  | .transfer _ _ | .write _ _ | .read _ _ => true
  | _ => false

/-- The calls that set a sensor to work and those that use what it has done. -/
structure Sensor where
  begins : Call → Option (Work × Nat)
  uses : Call → Option (Work × Leaves)
  names : List Bytes
  untouched : ∀ call, reaches call = false → begins call = none ∧ uses call = none

structure Desk where
  opened : List Int
  pending : Option Pending
  deriving DecidableEq

def descriptorOf : Call → Option Int
  | .ioctl fd _ | .transfer fd _ | .write fd _ | .read fd _ | .seek fd | .sendto fd _
  | .close fd => some fd
  | _ => none

def opens : Call → Bool
  | .openFile _ _ | .socket => true
  | _ => false

def succeeded : Call → Answer → Bool
  | .write _ data, answer => answer.ret = data.length
  | .transfer _ _, answer => 0 ≤ answer.ret
  | _, _ => true

def Desk.openedAfter (desk : Desk) (call : Call) (answer : Answer) : List Int :=
  match call with
  | .openFile _ _ | .socket => if answer.ret < 0 then desk.opened else answer.ret :: desk.opened
  | .close fd => desk.opened.erase fd
  | _ => desk.opened

def Pending.wait (micros : Nat) (pending : Pending) : Pending :=
  { pending with left := pending.left - micros }

def Pending.leave (pending : Pending) : Leaves → Option Pending
  | .kept => some pending
  | .renewed => some { pending with left := pending.need }
  | .spent => none

def Desk.pendingAfter (desk : Desk) (sensor : Sensor) (call : Call) (answer : Answer) :
    Option Pending :=
  match sensor.begins call with
  | some (work, need) => if succeeded call answer then some ⟨work, need, need⟩ else none
  | none =>
      match sensor.uses call with
      | some (_, leaves) => desk.pending.bind fun pending => pending.leave leaves
      | none =>
          match call with
          | .pause micros => desk.pending.map (Pending.wait micros)
          | .close _ => none
          | _ => desk.pending

/-- The sensor has had the time for what is fetched. -/
def Ready (desk : Desk) (work : Work) : Prop :=
  ∃ at', desk.pending = some at' ∧ at'.work = work ∧ at'.left = 0

/-- The text of a reading under one of these names. -/
def Message (names : List Bytes) (message : Bytes) : Prop :=
  ∃ name text, name ∈ names ∧ Sent name text ∧ WireFormat.sendValue name text = some message

structure Orderly (sensor : Sensor) (desk : Desk) (call : Call) : Prop where
  held : ∀ fd, descriptorOf call = some fd → fd ∈ desk.opened
  ready : ∀ work leaves, sensor.uses call = some (work, leaves) → Ready desk work
  sends : ∀ fd message, call = .sendto fd message → Message sensor.names message

/-- The system gives out a descriptor that is not in use. -/
def order (sensor : Sensor) : Protocol Call Answer Desk where
  orderly := Orderly sensor
  owed desk call answer := opens call = true → 0 ≤ answer.ret → answer.ret ∉ desk.opened
  after desk call answer := ⟨desk.openedAfter call answer, desk.pendingAfter sensor call answer⟩

instance (sensor : Sensor) (desk : Desk) (call : Call) (answer : Answer) :
    Decidable ((order sensor).owed desk call answer) :=
  inferInstanceAs (Decidable (_ → _ → _))

/-- The longest that a BMP180 takes for a temperature, or for a pressure in each mode. -/
def bmp180Takes (cmd : UInt8) : Option Nat :=
  if cmd = 0x2E ∨ cmd = 0x34 then some 4500
  else if cmd = 0x74 then some 7500
  else if cmd = 0xB4 then some 13500
  else if cmd = 0xF4 then some 25500
  else none

def bmp180 : Sensor where
  begins
    | .write _ [reg, cmd] =>
        if reg = 0xF4 then (bmp180Takes cmd).map fun micros => (.conversion, micros) else none
    | _ => none
  uses
    | .write _ [reg] =>
        if reg = 0xF6 ∨ reg = 0xF7 ∨ reg = 0xF8 then some (.conversion, .kept) else none
    | _ => none
  names := [ascii "bmp180_temp", ascii "bmp180_pressure_pa"]
  untouched call far := by
    cases call <;> first | exact ⟨rfl, rfl⟩ | cases far

def htu21d : Sensor where
  begins
    | .write _ [cmd] =>
        if cmd = 0xF3 then some (.conversion, 100000)
        else if cmd = 0xF5 then some (.conversion, 50000) else none
    | _ => none
  -- Each attempt is preceded by a wait of its own.
  uses
    | .read _ _ => some (.conversion, .renewed)
    | _ => none
  names := [ascii "htu21d_temp", ascii "htu21d_rh"]
  untouched call far := by
    cases call <;> first | exact ⟨rfl, rfl⟩ | cases far

def gy63 : Sensor where
  begins
    | .transfer _ [cmd] =>
        if cmd = 0x1E then some (.reset, 3000)
        else if cmd = 0x48 ∨ cmd = 0x58 then some (.conversion, 9040) else none
    | _ => none
  uses
    | .transfer _ (cmd :: _) =>
        if cmd = 0x00 then some (.conversion, .spent)
        else if 0xA0 ≤ cmd ∧ cmd ≤ 0xAE then some (.reset, .kept) else none
    | _ => none
  names := [ascii "gy63_press_hpa", ascii "gy63_temp"]
  untouched call far := by
    cases call <;> first | exact ⟨rfl, rfl⟩ | cases far

/-- The samples are taken off the line as it is. -/
def dht11 : Sensor where
  begins _ := none
  uses _ := none
  names := [ascii "dht11_temp", ascii "dht11_rh"]
  untouched _ _ := ⟨rfl, rfl⟩

/-! ## One call -/

/-- The descriptors that are open. -/
def Open (opened : List Int) (desk : Desk) : Prop := desk.opened = opened

/-- The calls that work on a descriptor and leave it open. -/
def worksOn : Call → Option Int
  | .ioctl fd _ | .transfer fd _ | .write fd _ | .read fd _ | .seek fd => some fd
  | _ => none

section
variable {sensor : Sensor} {desk : Desk} {post : Answer → Desk → Prop}

theorem meets_work (call : Call) (fd : Int) (works : worksOn call = some fd)
    (held : fd ∈ desk.opened)
    (ready : ∀ work leaves, sensor.uses call = some (work, leaves) → Ready desk work)
    (next : ∀ answer, post answer ⟨desk.opened, desk.pendingAfter sensor call answer⟩) :
    Meets (order sensor) post (ask call) desk := by
  cases call <;> cases works <;>
    exact ⟨⟨fun _ same => Option.some.inj same ▸ held, ready, nofun⟩, fun answer _ => next answer⟩

/-- Nothing that the sensor is at begins, ends or is used. -/
theorem meets_work_quiet (call : Call) (fd : Int) (works : worksOn call = some fd)
    (held : fd ∈ desk.opened) (begins : sensor.begins call = none)
    (uses : sensor.uses call = none) (next : ∀ answer, post answer desk) :
    Meets (order sensor) post (ask call) desk := by
  refine meets_work call fd works held (fun work leaves used => ?_) fun answer => ?_
  · rw [uses] at used
    cases used
  · have same : desk.pendingAfter sensor call answer = desk.pending := by
      cases call <;> cases works <;> simp only [Desk.pendingAfter, begins, uses]
    rw [same]
    exact next answer

theorem unused (call : Call) (far : reaches call = false) :
    ∀ work leaves, sensor.uses call = some (work, leaves) → Ready desk work := by
  intro work leaves used
  rw [(sensor.untouched call far).2] at used
  cases used

theorem meets_pause (micros : Nat)
    (next : ∀ answer, post answer ⟨desk.opened, desk.pending.map (Pending.wait micros)⟩) :
    Meets (order sensor) post (ask (.pause micros)) desk := by
  refine ⟨⟨nofun, unused _ rfl, nofun⟩, fun answer _ => ?_⟩
  have same : desk.pendingAfter sensor (.pause micros) answer =
      desk.pending.map (Pending.wait micros) := by
    obtain ⟨begins, uses⟩ := sensor.untouched (.pause micros) rfl
    simp only [Desk.pendingAfter, begins, uses]
  simp only [order, same]
  exact next answer

end

section
variable {sensor : Sensor} {inv : Desk → Prop}

theorem keeps_work (call : Call) (fd : Int) (works : worksOn call = some fd)
    (held : ∀ desk, inv desk → fd ∈ desk.opened) (begins : sensor.begins call = none)
    (uses : sensor.uses call = none) : Keeps (order sensor) inv (ask call) :=
  fun desk holds => meets_work_quiet call fd works (held desk holds) begins uses fun _ => holds

theorem keeps_pause (opened : List Int) (micros : Nat) :
    Keeps (order sensor) (Open opened) (ask (.pause micros)) :=
  fun _ holds => meets_pause micros fun _ => holds

end

/-- A command that sets the sensor to work, a wait that is long enough, and then whatever fetches
the result. -/
theorem timed_meets {Result : Type} {sensor : Sensor} {opened : List Int} {desk : Desk}
    {post : Option Result → Desk → Prop} {work : Work} {need micros : Nat} {start : Try Unit}
    {rest : Try Result}
    (started : Meets (order sensor) (fun result after => Open opened after ∧
      ∀ done ∈ result, after.pending = some ⟨work, need, need⟩) start.run desk)
    (long : need ≤ micros) (failed : ∀ after, Open opened after → post none after)
    (next : ∀ after, Open opened after → Ready after work →
      Meets (order sensor) post rest.run after) :
    Meets (order sensor) post
      (start >>= fun _ => liftM (ask (.pause micros)) >>= fun _ => rest).run desk := by
  simp only [meets_run_bind, meets_run_lift]
  refine meets_mono _ _ _ _ _ started fun result begun kept => ?_
  cases result with
  | none => exact failed begun kept.1
  | some done =>
      refine meets_pause micros fun _ => ?_
      exact next _ kept.1 ⟨_, congrArg (Option.map _) (kept.2 done rfl), rfl,
        Nat.sub_eq_zero_of_le long⟩

/-- What is read of a sensor that is ready does not change the desk. -/
theorem steady_meets {Result : Type} {sensor : Sensor} {program : Device Result}
    (opened : List Int) (desk : Desk) (holds : Open opened desk)
    (steady : Keeps (order sensor) (· = desk) program) :
    Meets (order sensor) (fun _ after => Open opened after) program desk := by
  refine meets_mono _ _ _ _ _ (steady desk rfl) ?_
  rintro result _ rfl
  exact holds

/-! ## Opening and closing -/

section
variable {sensor : Sensor}

theorem meets_open {post : Answer → Desk → Prop} (call : Call) (own : opens call = true)
    (opened : List Int) (desk : Desk) (holds : Open opened desk)
    (failed : ∀ answer after, answer.ret < 0 → Open opened after → post answer after)
    (worked : ∀ answer after, 0 ≤ answer.ret → answer.ret ∉ opened →
      Open (answer.ret :: opened) after → post answer after) :
    Meets (order sensor) post (ask call) desk := by
  have same : desk.opened = opened := holds
  have after (answer : Answer) : desk.openedAfter call answer =
      if answer.ret < 0 then desk.opened else answer.ret :: desk.opened := by
    cases call <;> cases own <;> rfl
  have orderly : Orderly sensor desk call := by
    cases call <;> cases own <;> exact ⟨nofun, unused _ rfl, nofun⟩
  refine ⟨orderly, fun answer owed => ?_⟩
  by_cases negative : answer.ret < 0
  · exact failed answer _ negative (by simp only [order, Open, after, if_pos negative, same])
  · refine worked answer _ (by omega) (same ▸ owed own (by omega)) ?_
    simp only [order, Open, after, if_neg negative, same]

theorem meets_close {post : Answer → Desk → Prop} (fd : Int) (opened : List Int) (desk : Desk)
    (holds : Open (fd :: opened) desk)
    (next : ∀ answer after, Open opened after → post answer after) :
    Meets (order sensor) post (ask (.close fd)) desk := by
  have same : desk.opened = fd :: opened := holds
  refine ⟨⟨fun other found => ?_, unused _ rfl, nofun⟩, fun answer _ => next answer _ ?_⟩
  · obtain rfl := Option.some.inj found
    rw [same]
    exact List.mem_cons_self
  · simp only [order, Open, Desk.openedAfter, same, List.erase_cons_head]

theorem closeDescriptor_meets (fd : Int) (opened : List Int) (desk : Desk)
    (holds : Open (fd :: opened) desk) (valid : 0 ≤ fd) :
    Meets (order sensor) (fun _ after => Open opened after) (closeDescriptor fd) desk := by
  rw [closeDescriptor, if_pos valid, meets_bind]
  exact meets_close fd opened desk holds fun _ _ rest => rest

theorem openDevice_meets {Made Dev : Type} (path : Bytes) (configure : Int → Try Made)
    (device : Int → Made → Dev) (fdOf : Dev → Int) (own : ∀ fd made, fdOf (device fd made) = fd)
    (kept : ∀ fd, Keeps (order sensor) (Open [fd]) (configure fd).run) (desk : Desk)
    (holds : Open [] desk) :
    Meets (order sensor) (fun result after => (result = none → Open [] after) ∧
      ∀ dev ∈ result, 0 ≤ fdOf dev ∧ Open [fdOf dev] after)
      (openDevice path configure device) desk := by
  rw [openDevice, meets_bind]
  refine meets_open _ rfl [] desk holds (fun answer after negative rest => ?_)
    fun answer after valid _ held => ?_
  · rw [if_pos negative]
    exact ⟨fun _ => rest, nofun⟩
  · rw [if_neg (by omega), meets_bind]
    refine meets_mono _ _ _ _ _ (kept answer.ret after held) fun made configured still => ?_
    cases made with
    | none =>
        -- What failed after `open` has left nothing but the descriptor.
        refine (meets_bind _ _ _ _ _).mpr ?_
        exact meets_close answer.ret [] configured still fun _ _ rest =>
          ⟨fun _ => rest, nofun⟩
    | some made =>
        refine ⟨nofun, fun dev same => ?_⟩
        obtain rfl := Option.some.inj same
        rw [own]
        exact ⟨valid, still⟩

end

/-! ## bmp180.c -/

/-- The registers that a result is fetched from. -/
def ResultRegister (reg : UInt8) : Prop := reg = 0xF6 ∨ reg = 0xF7 ∨ reg = 0xF8

instance (reg : UInt8) : Decidable (ResultRegister reg) :=
  inferInstanceAs (Decidable (_ ∨ _ ∨ _))

section
variable (fd : Int) (desk : Desk) (held : fd ∈ desk.opened)
include held

/-- Any register but those of a result can be named at any time. -/
theorem nameRegister_keeps (reg : UInt8) (ready : ResultRegister reg → Ready desk .conversion) :
    Keeps (order bmp180) (· = desk) (ask (.write fd [reg])) := by
  rintro here rfl
  refine meets_work _ fd rfl held (fun work leaves used => ?_) fun answer => ?_
  · obtain ⟨result, same⟩ := Option.ite_none_right_eq_some.mp used
    obtain ⟨rfl, -⟩ := Prod.mk.inj (Option.some.inj same)
    exact ready result
  · have kept : here.pendingAfter bmp180 (.write fd [reg]) answer = here.pending := by
      simp only [Desk.pendingAfter, bmp180]
      by_cases result : reg = 0xF6 ∨ reg = 0xF7 ∨ reg = 0xF8
      · rw [if_pos result]
        cases here.pending <;> rfl
      · rw [if_neg result]
    rw [kept]

theorem readBytes_keeps (count : Nat) : Keeps (order bmp180) (· = desk) (ask (.read fd count)) :=
  keeps_work _ fd rfl (fun _ same => same ▸ held) rfl rfl

theorem i2cReadByte_keeps (reg : UInt8) (ready : ResultRegister reg → Ready desk .conversion) :
    Keeps (order bmp180) (· = desk) (i2cReadByte fd reg).run := by
  unfold i2cReadByte
  refine keeps_run_bind (keeps_run_lift (nameRegister_keeps fd desk held reg ready)) fun _ => ?_
  refine keeps_run_bind (keeps_run_guard _) fun _ => ?_
  refine keeps_run_bind (keeps_run_lift (readBytes_keeps fd desk held 1)) fun _ => ?_
  exact keeps_run_bind (keeps_run_guard _) fun _ => keeps_run_ofOption _

theorem i2cReadWordBe_keeps (reg : UInt8) (ready : ResultRegister reg → Ready desk .conversion) :
    Keeps (order bmp180) (· = desk) (i2cReadWordBe fd reg).run := by
  unfold i2cReadWordBe
  refine keeps_run_bind (keeps_run_lift (nameRegister_keeps fd desk held reg ready)) fun _ => ?_
  refine keeps_run_bind (keeps_run_guard _) fun _ => ?_
  refine keeps_run_bind (keeps_run_lift (readBytes_keeps fd desk held 2)) fun _ => ?_
  exact keeps_run_bind (keeps_run_guard _) fun _ => keeps_run_ofOption _

theorem calibrationWord_keeps (reg : UInt8) (other : ¬ ResultRegister reg) :
    Keeps (order bmp180) (· = desk) (calibrationWord fd reg).run := by
  unfold calibrationWord
  refine keeps_run_bind (i2cReadWordBe_keeps fd desk held reg fun result => absurd result other)
    fun _ => ?_
  exact keeps_run_bind (keeps_run_guard _) fun _ => keeps_run_pure _

theorem loadCalibration_keeps : Keeps (order bmp180) (· = desk) (loadCalibration fd).run := by
  have word (reg : UInt8) (other : ¬ ResultRegister reg) :=
    calibrationWord_keeps fd desk held reg other
  unfold loadCalibration
  iterate 11 refine keeps_run_bind (word _ (by decide)) fun _ => ?_
  exact keeps_run_pure _

end

section
variable (fd : Int) (opened : List Int) (held : fd ∈ opened)
include held

theorem begin_meets (val : UInt8) (need : Nat)
    (begins : bmp180.begins (.write fd [0xF4, val]) = some (.conversion, need)) (desk : Desk)
    (holds : Open opened desk) :
    Meets (order bmp180) (fun result after => Open opened after ∧
      ∀ done ∈ result, after.pending = some ⟨.conversion, need, need⟩)
      (i2cWriteByte fd 0xF4 val).run desk := by
  simp only [i2cWriteByte, meets_run_bind, meets_run_lift, meets_run_guard, Option.elim]
  refine meets_work _ fd rfl (holds ▸ held) (fun work leaves used => ?_) fun answer => ?_
  · cases used
  split
  · next whole =>
    refine ⟨holds, fun _ _ => ?_⟩
    simp only [Desk.pendingAfter, begins]
    exact if_pos (decide_eq_true whole)
  · refine ⟨holds, fun done found => ?_⟩
    cases found

theorem readRawTemperature_keeps :
    Keeps (order bmp180) (Open opened) (readRawTemperature fd).run := by
  intro desk holds
  refine timed_meets (begin_meets fd opened held 0x2E 4500 rfl desk holds) le_rfl
    (fun _ rest => rest) fun after same ready => steady_meets opened after same ?_
  exact keeps_run_bind (i2cReadWordBe_keeps fd after (same ▸ held) 0xF6 fun _ => ready)
    fun _ => keeps_run_pure _

theorem readRawPressure_keeps (oss : Oss) :
    Keeps (order bmp180) (Open opened) (readRawPressure fd oss).run := by
  intro desk holds
  have begins : bmp180.begins (.write fd [0xF4, pressureCommand oss]) =
      some (.conversion, ossDelayUs oss) := by
    cases oss <;> rfl
  refine timed_meets (begin_meets fd opened held _ _ begins desk holds) le_rfl
    (fun _ rest => rest) fun after same ready => steady_meets opened after same ?_
  have byte (reg : UInt8) := i2cReadByte_keeps fd after (same ▸ held) reg fun _ => ready
  iterate 3 refine keeps_run_bind (byte _) fun _ => ?_
  exact keeps_run_ofOption _

end

section
variable (dev : Bmp180Dev) (opened : List Int) (held : dev.fd ∈ opened)
include held

theorem bmp180ReadTemperature_keeps :
    Keeps (order bmp180) (Open opened) (bmp180ReadTemperature dev).run := by
  unfold bmp180ReadTemperature
  refine keeps_run_bind (readRawTemperature_keeps dev.fd opened held) fun _ => ?_
  exact keeps_run_bind (keeps_run_ofOption _) fun _ => keeps_run_pure _

theorem bmp180ReadPressure_keeps :
    Keeps (order bmp180) (Open opened) (bmp180ReadPressure dev).run := by
  unfold bmp180ReadPressure
  refine keeps_run_bind (readRawTemperature_keeps dev.fd opened held) fun _ => ?_
  refine keeps_run_bind (readRawPressure_keeps dev.fd opened held dev.oss) fun _ => ?_
  exact keeps_run_bind (keeps_run_ofOption _) fun _ => keeps_run_pure _

end

theorem bmp180Configure_keeps (addr : UInt8) (fd : Int) :
    Keeps (order bmp180) (Open [fd]) (bmp180Configure addr fd).run := by
  intro desk holds
  have held : fd ∈ desk.opened := holds ▸ List.mem_cons_self
  refine steady_meets [fd] desk holds ?_
  unfold bmp180Configure
  refine keeps_run_bind (keeps_run_lift ?_) fun _ => ?_
  · exact keeps_work _ fd rfl (fun _ here => here ▸ held) rfl rfl
  refine keeps_run_bind (keeps_run_guard _) fun _ => ?_
  refine keeps_run_bind (i2cReadByte_keeps fd desk held 0xD0 fun result => ?_) fun _ => ?_
  · exact absurd result (by decide)
  exact keeps_run_bind (keeps_run_guard _) fun _ => loadCalibration_keeps fd desk held

/-! ## htu21d.c -/

theorem htu21dSelect_keeps (addr : UInt8) (fd : Int) :
    Keeps (order htu21d) (Open [fd]) (htu21dSelect addr fd).run := by
  unfold htu21dSelect
  refine keeps_run_bind (keeps_run_lift ?_) fun _ => keeps_run_guard _
  exact keeps_work _ fd rfl (fun _ here => here ▸ List.mem_cons_self) rfl rfl

section
variable (fd : Int) (opened : List Int) (held : fd ∈ opened)
include held

/-- At the head of the loop the whole wait is still to come, whatever was read before. -/
theorem attempts_meets (delayUs : Nat) (isTemp : Bool) (left : Nat) (desk : Desk)
    (holds : Open opened desk) (pending : desk.pending = some ⟨.conversion, delayUs, delayUs⟩) :
    Meets (order htu21d) (fun _ after => Open opened after) (attempts fd delayUs isTemp left)
      desk := by
  induction left generalizing desk with
  | zero => exact holds
  | succ left ih =>
      rw [attempts, meets_bind]
      refine meets_pause delayUs fun _ => ?_
      rw [meets_bind]
      refine meets_work _ fd rfl (holds ▸ held) (fun work leaves used => ?_) fun answer => ?_
      · obtain ⟨rfl, -⟩ := Prod.mk.inj (Option.some.inj used)
        exact ⟨_, congrArg (Option.map _) pending, rfl, Nat.sub_self delayUs⟩
      · cases accepted isTemp answer with
        | some value => exact holds
        | none =>
            refine ih _ holds ?_
            simp only [Desk.pendingAfter, htu21d, pending]
            rfl

theorem htu21dReadMeasurement_keeps (cmd : UInt8) (delayUs : Nat) (isTemp : Bool)
    (begins : htu21d.begins (.write fd [cmd]) = some (.conversion, delayUs)) :
    Keeps (order htu21d) (Open opened) (htu21dReadMeasurement fd cmd delayUs isTemp) := by
  intro desk holds
  rw [htu21dReadMeasurement, meets_bind]
  refine meets_work _ fd rfl (holds ▸ held) nofun fun answer => ?_
  split
  · exact holds
  · next whole =>
    refine attempts_meets fd opened held delayUs isTemp 10 _ holds ?_
    simp only [Desk.pendingAfter, begins]
    exact if_pos (decide_eq_true (not_not.mp whole))

end

/-! ## gy63.c -/

section
variable (fd : Int) (opened : List Int) (held : fd ∈ opened)
include held

theorem spiCmd_meets (cmd : UInt8) (work : Work) (need : Nat)
    (begins : gy63.begins (.transfer fd [cmd]) = some (work, need))
    (unused : gy63.uses (.transfer fd [cmd]) = none) (desk : Desk) (holds : Open opened desk) :
    Meets (order gy63) (fun result after => Open opened after ∧
      ∀ done ∈ result, after.pending = some ⟨work, need, need⟩) (spiCmd fd cmd).run desk := by
  simp only [spiCmd, spiCmdRead, meets_run_bind, meets_run_lift, meets_run_guard, meets_run_pure,
    Option.elim]
  refine meets_work _ fd rfl (holds ▸ held) (fun work leaves used => ?_) fun answer => ?_
  · rw [List.replicate_zero, unused] at used
    cases used
  · split
    · next whole =>
      refine ⟨holds, fun _ _ => ?_⟩
      simp only [Desk.pendingAfter, List.replicate_zero, begins]
      exact if_pos (decide_eq_true whole)
    · refine ⟨holds, fun done found => ?_⟩
      cases found

theorem ms5611Reset_meets (desk : Desk) (holds : Open opened desk) :
    Meets (order gy63) (fun result after => Open opened after ∧
      ∀ done ∈ result, Ready after .reset) (ms5611Reset fd).run desk := by
  refine timed_meets (spiCmd_meets fd opened held 0x1E .reset 3000 rfl rfl desk holds)
    le_rfl (fun _ rest => ⟨rest, nofun⟩) fun after same ready => ⟨same, fun _ _ => ready⟩

theorem ms5611ReadAdc_keeps (convCmd : UInt8) (conv : convCmd = 0x48 ∨ convCmd = 0x58) :
    Keeps (order gy63) (Open opened) (ms5611ReadAdc fd convCmd).run := by
  intro desk holds
  have begins : gy63.begins (.transfer fd [convCmd]) = some (.conversion, 9040) := by
    rcases conv with rfl | rfl <;> rfl
  have unused : gy63.uses (.transfer fd [convCmd]) = none := by
    rcases conv with rfl | rfl <;> rfl
  refine timed_meets (spiCmd_meets fd opened held convCmd _ _ begins unused desk holds)
    (by norm_num) (fun _ rest => rest) fun after same ready => ?_
  simp only [spiCmdRead, meets_run_bind, meets_run_lift, meets_run_guard, meets_run_pure,
    Option.elim]
  refine meets_work _ fd rfl (same ▸ held) (fun work leaves used => ?_) fun answer => ?_
  · obtain ⟨rfl, -⟩ := Prod.mk.inj (Option.some.inj used)
    exact ready
  · split <;> exact same

end

theorem ms5611ReadProm_keeps (fd : Int) (desk : Desk) (held : fd ∈ desk.opened)
    (ready : Ready desk .reset) (words : List Nat) (few : ∀ n ∈ words, n < 8) :
    Keeps (order gy63) (· = desk) (ms5611ReadProm fd words).run := by
  induction words with
  | nil => exact keeps_run_pure _
  | cons n rest ih =>
      obtain ⟨here, later⟩ := List.forall_mem_cons.mp few
      have uses (rx : Bytes) : gy63.uses (.transfer fd (promCommand n :: rx)) =
          some (.reset, .kept) := by
        interval_cases n <;> rfl
      rw [ms5611ReadProm]
      refine keeps_run_bind ?_ fun _ => keeps_run_bind (ih later) fun _ => keeps_run_pure _
      refine keeps_run_bind (keeps_run_lift ?_) fun _ => ?_
      · rintro here rfl
        refine meets_work _ fd rfl held (fun work leaves used => ?_) fun answer => ?_
        · rw [uses] at used
          obtain ⟨rfl, -⟩ := Prod.mk.inj (Option.some.inj used)
          exact ready
        · have begins (rx : Bytes) : gy63.begins (.transfer fd (promCommand n :: 0 :: rx)) =
              none := rfl
          have kept : here.pendingAfter gy63 (.transfer fd (promCommand n :: List.replicate 2 0))
              answer = here.pending := by
            simp only [Desk.pendingAfter, List.replicate_succ, begins, uses]
            cases here.pending <;> rfl
          rw [kept]
      · exact keeps_run_bind (keeps_run_guard _) fun _ => keeps_run_pure _

theorem gy63Configure_keeps (fd : Int) :
    Keeps (order gy63) (Open [fd]) (gy63Configure fd).run := by
  have held : fd ∈ [fd] := List.mem_cons_self
  have set (setting : Setting) : Keeps (order gy63) (Open [fd])
      (liftM (ask (.ioctl fd setting)) : Try Answer).run :=
    keeps_run_lift (keeps_work _ fd rfl (fun _ here => here ▸ held) rfl rfl)
  unfold gy63Configure
  iterate 3
    refine keeps_run_bind (set _) fun _ => ?_
    refine keeps_run_bind (keeps_run_guard _) fun _ => ?_
  intro desk holds
  rw [meets_run_bind]
  refine meets_mono _ _ _ _ _ (ms5611Reset_meets fd [fd] held desk holds) ?_
  rintro (_ | _) after ⟨same, ready⟩
  · exact same
  refine steady_meets [fd] after same ?_
  have words : ∀ n ∈ List.range 8, n < 8 := fun n => List.mem_range.mp
  refine keeps_run_bind (ms5611ReadProm_keeps fd after (same ▸ held) (ready () rfl) _ words)
    fun _ => ?_
  refine keeps_run_bind (keeps_run_guard _) fun _ => ?_
  exact keeps_run_bind (keeps_run_guard _) fun _ => keeps_run_pure _

/-- What the client sends as a reading, the compensation has computed. -/
theorem gy63Read_meets (dev : GY63Dev) (opened : List Int) (held : dev.spiFd ∈ opened)
    (desk : Desk) (holds : Open opened desk) :
    Meets (order gy63) (fun result after => Open opened after ∧ ∀ reading ∈ result,
      ∃ first second, PressureCompensation.gy63Read ⟨0, dev.prom⟩ (some first) (some second) =
        some reading) (gy63Read dev).run desk := by
  have fetched (convCmd : UInt8) (conv : convCmd = 0x48 ∨ convCmd = 0x58) :=
    ms5611ReadAdc_keeps dev.spiFd opened held convCmd conv
  rw [gy63Read, meets_run_bind, meets_run_guard]
  split
  · refine (meets_run_bind _ _ _ _ _).mpr ?_
    refine meets_mono _ _ _ _ _ (fetched 0x48 (.inl rfl) desk holds) ?_
    rintro (_ | d1) after same
    · exact ⟨same, nofun⟩
    refine (meets_run_bind _ _ _ _ _).mpr ?_
    refine meets_mono _ _ _ _ _ (fetched 0x58 (.inr rfl) after same) ?_
    rintro (_ | d2) last still
    · exact ⟨still, nofun⟩
    exact ⟨still, fun reading read => ⟨d1, d2, read⟩⟩
  · exact ⟨holds, nofun⟩

/-! ## dht11.c -/

section
variable (opened : List Int)

theorem access_keeps {sensor : Sensor} (path : Bytes) :
    Keeps (order sensor) (Open opened) (ask (.access path)) := by
  intro desk holds
  refine ⟨⟨nofun, unused _ rfl, nofun⟩, fun _ _ => holds⟩

theorem sysfsWrite_keeps (path val : Bytes) :
    Keeps (order dht11) (Open opened) (sysfsWrite path val) := by
  intro desk holds
  rw [sysfsWrite, meets_bind]
  refine meets_open _ rfl opened desk holds (fun answer after negative rest => ?_)
    fun answer after valid _ held => ?_
  · rw [if_pos negative]
    exact rest
  · rw [if_neg (by omega), meets_bind]
    have inside : answer.ret ∈ after.opened := by
      rw [held]
      exact List.mem_cons_self
    refine meets_work_quiet _ answer.ret rfl inside rfl rfl fun written => ?_
    rw [meets_bind]
    exact meets_close answer.ret opened after held fun _ _ rest => rest

theorem awaitPin_keeps (path : Bytes) (left : Nat) :
    Keeps (order dht11) (Open opened) (awaitPin path left) := by
  induction left with
  | zero => exact keeps_pure ()
  | succ left ih =>
      refine keeps_bind (access_keeps opened path) fun there => ?_
      refine keeps_ite _ (keeps_pure ()) ?_
      exact keeps_bind (keeps_pause opened 10000) fun _ => ih

theorem gpioExport_keeps (pin : UInt32) :
    Keeps (order dht11) (Open opened) (gpioExport pin) := by
  refine keeps_bind (access_keeps opened _) fun there => ?_
  refine keeps_ite _ (keeps_pure ()) ?_
  exact keeps_bind (sysfsWrite_keeps opened _ _) fun _ => awaitPin_keeps opened _ 50

theorem gpioSetDirection_keeps (pin : UInt32) (dir : Bytes) :
    Keeps (order dht11) (Open opened) (gpioSetDirection pin dir) :=
  keeps_bind (sysfsWrite_keeps opened _ _) fun _ => keeps_pure ()

theorem gpioWriteVal_keeps (pin : UInt32) (val : Bool) :
    Keeps (order dht11) (Open opened) (gpioWriteVal pin val) :=
  keeps_bind (sysfsWrite_keeps opened _ _) fun _ => keeps_pure ()

theorem dht11Open_keeps (pin : UInt32) : Keeps (order dht11) (Open opened) (dht11Open pin) := by
  refine keeps_bind (gpioExport_keeps opened pin) fun _ => ?_
  refine keeps_bind (gpioSetDirection_keeps opened pin _) fun _ => ?_
  refine keeps_bind (gpioWriteVal_keeps opened pin true) fun _ => ?_
  exact keeps_bind (access_keeps opened _) fun _ => keeps_pure _

theorem dht11Close_keeps (dev : DHT11Dev) :
    Keeps (order dht11) (Open opened) (dht11Close dev) := by
  refine keeps_bind (gpioSetDirection_keeps opened dev.gpioPin _) fun _ => ?_
  refine keeps_bind (keeps_bind (sysfsWrite_keeps opened _ _) fun _ => keeps_pure ()) fun _ => ?_
  exact keeps_pure _

theorem gpioOpenValue_meets (pin : UInt32) (desk : Desk) (holds : Open opened desk) :
    Meets (order dht11) (fun result after => (result < 0 → Open opened after) ∧
      (0 ≤ result → Open (result :: opened) after)) (gpioOpenValue pin) desk := by
  rw [gpioOpenValue, meets_bind]
  refine meets_mono _ _ _ _ _ (access_keeps opened _ desk holds) fun there after same => ?_
  split
  · exact ⟨fun _ => same, fun valid => absurd valid (by decide)⟩
  · rw [meets_bind]
    refine meets_open _ rfl opened after same (fun answer last negative rest => ?_)
      fun answer last valid _ held => ?_
    · exact ⟨fun _ => rest, fun valid => absurd valid (by omega)⟩
    · exact ⟨fun negative => absurd negative (by omega), fun _ => held⟩

end

section
variable (fd : Int) (opened : List Int) (held : fd ∈ opened)
include held

theorem sample_keeps : Keeps (order dht11) (Open opened) (SensorDrivers.gpioReadFd fd) := by
  have holding : ∀ desk, Open opened desk → fd ∈ desk.opened := fun _ same => same ▸ held
  refine keeps_bind (keeps_work (.seek fd) fd rfl holding rfl rfl) fun _ => ?_
  exact keeps_bind (keeps_work (.read fd 1) fd rfl holding rfl rfl) fun _ => keeps_pure _

theorem awaitLevel_keeps (level : Int) (left : Nat) :
    Keeps (order dht11) (Open opened) (awaitLevel fd level left) := by
  induction left with
  | zero => exact keeps_pure false
  | succ left ih =>
      refine keeps_bind (sample_keeps fd opened held) fun sample => ?_
      refine keeps_ite _ (keeps_pure true) ?_
      exact keeps_bind (keeps_pause opened 1) fun _ => ih

theorem countLevel_keeps (level : Int) (left : Nat) :
    Keeps (order dht11) (Open opened) (countLevel fd level left) := by
  induction left with
  | zero => exact keeps_pure _
  | succ left ih =>
      refine keeps_bind (sample_keeps fd opened held) fun sample => ?_
      refine keeps_ite _ ?_ (keeps_pure _)
      exact keeps_bind (keeps_pause opened 1) fun _ => ih

theorem measured_keeps (level : Int) :
    Keeps (order dht11) (Open opened) (measured fd level).run := by
  refine keeps_run_bind (keeps_run_lift ?_) fun _ => ?_
  · refine keeps_bind (awaitLevel_keeps fd opened held level _) fun reached => ?_
    exact keeps_ite _ (countLevel_keeps fd opened held level _) (keeps_pure _)
  · exact keeps_run_bind (keeps_run_guard _) fun _ => keeps_run_pure _

theorem receiveBits_keeps (buf : List UInt8) (left : Nat) :
    Keeps (order dht11) (Open opened) (receiveBits fd buf left).run := by
  induction left generalizing buf with
  | zero => exact keeps_run_pure buf
  | succ left ih =>
      refine keeps_run_bind (measured_keeps fd opened held 0) fun _ => ?_
      exact keeps_run_bind (measured_keeps fd opened held 1) fun t => ih _

theorem receive_keeps : Keeps (order dht11) (Open opened) (receive fd).run := by
  refine keeps_run_bind (measured_keeps fd opened held 0) fun _ => ?_
  refine keeps_run_bind (measured_keeps fd opened held 1) fun _ => ?_
  refine keeps_run_bind (receiveBits_keeps fd opened held _ 40) fun _ => ?_
  exact keeps_run_bind (keeps_run_guard _) fun _ => keeps_run_pure _

end

theorem dht11Read_keeps (dev : DHT11Dev) (opened : List Int) :
    Keeps (order dht11) (Open opened) (dht11Read dev) := by
  refine keeps_ite _ (keeps_pure none) ?_
  refine keeps_bind (gpioSetDirection_keeps opened _ _) fun _ => ?_
  refine keeps_bind (gpioWriteVal_keeps opened _ _) fun _ => ?_
  refine keeps_bind (keeps_pause opened _) fun _ => ?_
  refine keeps_bind (gpioWriteVal_keeps opened _ _) fun _ => ?_
  refine keeps_bind (keeps_pause opened _) fun _ => ?_
  refine keeps_bind (gpioSetDirection_keeps opened _ _) fun _ => ?_
  intro desk holds
  rw [meets_bind]
  refine meets_mono _ _ _ _ _ (gpioOpenValue_meets opened _ desk holds) ?_
  rintro valFd after ⟨failed, worked⟩
  split
  · next negative => exact failed negative
  · next valid =>
    have still : Open (valFd :: opened) after := worked (by omega)
    rw [meets_bind]
    -- Whatever becomes of the samples, the code comes past the close.
    refine meets_mono _ _ _ _ _ (receive_keeps valFd _ List.mem_cons_self after still) ?_
    intro data last held
    rw [meets_bind]
    exact meets_close valFd opened last held fun _ _ rest => rest

/-! ## The clients -/

section
variable {sensor : Sensor} (sock : Int) (opened : List Int) (held : sock ∈ opened)
include held

theorem sendValue_keeps (name text : Bytes) (named : name ∈ sensor.names)
    (sent : Sent name text) :
    Keeps (order sensor) (Open opened) (sendValue sock name text) := by
  intro desk holds
  unfold sendValue
  split
  · next message written =>
    rw [meets_bind]
    refine ⟨⟨fun fd same => ?_, unused _ rfl, fun fd other same => ?_⟩, fun _ _ => holds⟩
    · obtain rfl := Option.some.inj same
      exact holds ▸ held
    · obtain ⟨-, rfl⟩ := Call.sendto.inj same
      exact ⟨name, text, named, sent, written⟩
  · exact holds

theorem report_keeps (name : Bytes) (named : name ∈ sensor.names)
    (float : name ∈ WireFormat.floatSensors) (result : Option Float32) :
    Keeps (order sensor) (Open opened) (report sock name result) := by
  cases result with
  | none => exact keeps_pure ()
  | some value => exact sendValue_keeps sock opened held name _ named (.float name float value)

theorem gy63Report_keeps (dev : PressureCompensation.GY63Dev)
    (first second : Option PressureCompensation.AdcAnswer) (reading : Reading)
    (read : PressureCompensation.gy63Read dev first second = some reading) :
    Keeps (order gy63) (Open opened) (gy63Report sock (some reading)) := by
  refine keeps_bind ?_ fun _ => ?_
  · exact sendValue_keeps sock opened held _ _ List.mem_cons_self
      (.pressure dev first second _ read)
  · exact sendValue_keeps sock opened held _ _ (List.mem_cons_of_mem _ List.mem_cons_self)
      (.temperature dev first second _ read)

end

theorem bmp180Pass_keeps (dev : Bmp180Dev) (sock : Int) :
    Keeps (order bmp180) (Open [sock, dev.fd]) (bmp180Pass dev sock) := by
  have onBus : dev.fd ∈ [sock, dev.fd] := by simp
  have sends (name : Bytes) (named : name ∈ bmp180.names) (float : name ∈ WireFormat.floatSensors)
      (result : Option Float32) :=
    report_keeps sock [sock, dev.fd] List.mem_cons_self name named float result
  refine keeps_bind (bmp180ReadTemperature_keeps dev _ onBus) fun _ => ?_
  refine keeps_bind (sends _ (by decide) (by decide) _) fun _ => ?_
  refine keeps_bind (bmp180ReadPressure_keeps dev _ onBus) fun _ => ?_
  refine keeps_bind (sends _ (by decide) (by decide) _) fun _ => ?_
  exact keeps_bind (keeps_pause _ _) fun _ => keeps_pure ()

theorem htu21dPass_keeps (fd sock : Int) :
    Keeps (order htu21d) (Open [sock, fd]) (htu21dPass fd sock) := by
  have onBus : fd ∈ [sock, fd] := by simp
  have sends (name : Bytes) (named : name ∈ htu21d.names) (float : name ∈ WireFormat.floatSensors)
      (result : Option Float32) :=
    report_keeps sock [sock, fd] List.mem_cons_self name named float result
  refine keeps_bind (htu21dReadMeasurement_keeps fd _ onBus 0xF3 _ _ rfl) fun _ => ?_
  refine keeps_bind (sends _ (by decide) (by decide) _) fun _ => ?_
  refine keeps_bind (htu21dReadMeasurement_keeps fd _ onBus 0xF5 _ _ rfl) fun _ => ?_
  refine keeps_bind (sends _ (by decide) (by decide) _) fun _ => ?_
  exact keeps_bind (keeps_pause _ _) fun _ => keeps_pure ()

theorem gy63Pass_keeps (interval : UInt32) (dev : GY63Dev) (sock : Int) :
    Keeps (order gy63) (Open [sock, dev.spiFd]) (gy63Pass interval dev sock) := by
  have onBus : dev.spiFd ∈ [sock, dev.spiFd] := by simp
  intro desk holds
  rw [gy63Pass, meets_bind]
  refine meets_mono _ _ _ _ _ (gy63Read_meets dev _ onBus desk holds) ?_
  rintro result after ⟨same, computed⟩
  have rests : Keeps (order gy63) (Open [sock, dev.spiFd]) (gy63Report sock result) := by
    cases result with
    | none => exact keeps_pure ()
    | some reading =>
        obtain ⟨first, second, read⟩ := computed reading rfl
        exact gy63Report_keeps sock _ List.mem_cons_self _ _ _ reading read
  exact keeps_bind rests (fun _ => keeps_bind (keeps_pause _ _) fun _ => keeps_pure ()) after same

theorem dht11Pass_keeps (cfg : Dht11Config) (sock : Int) (state : Nat × DHT11Dev) :
    Keeps (order dht11) (Open [sock]) (dht11Pass cfg sock state) := by
  have sends (name text : Bytes) (named : name ∈ dht11.names) (sent : Sent name text) :=
    sendValue_keeps sock [sock] List.mem_cons_self name text named sent
  refine keeps_bind (dht11Read_keeps state.2 [sock]) fun result => ?_
  cases result with
  | some data =>
      refine keeps_bind (sends _ _ (by decide) (.float _ (by decide) _)) fun _ => ?_
      refine keeps_bind (sends _ _ (by decide) (.float _ (by decide) _)) fun _ => ?_
      exact keeps_bind (keeps_pause _ _) fun _ => keeps_pure _
  | none =>
      refine keeps_ite _ ?_ (keeps_bind (keeps_pause _ _) fun _ => keeps_pure _)
      refine keeps_bind (dht11Close_keeps _ _) fun _ => keeps_bind (keeps_pause _ _) fun _ => ?_
      refine keeps_bind (dht11Open_keeps _ _) fun _ => ?_
      exact keeps_bind (keeps_pause _ _) fun _ => keeps_pure _

/-- From the device and then the socket opened, passes that keep both, and both closed. -/
theorem clientMain_meets {sensor : Sensor} {Dev : Type} (fdOf : Dev → Int)
    (opening : Device (Option Dev)) (pass : Dev → Int → Device Unit) (closing : Dev → Device Unit)
    (count : Nat) (desk : Desk)
    (opened : Meets (order sensor) (fun result after => (result = none → Open [] after) ∧
      ∀ dev ∈ result, 0 ≤ fdOf dev ∧ Open [fdOf dev] after) opening desk)
    (kept : ∀ dev sock, Keeps (order sensor) (Open [sock, fdOf dev]) (pass dev sock))
    (closes : ∀ dev, closing dev = closeDescriptor (fdOf dev)) :
    Meets (order sensor) (fun _ after => Open [] after) (clientMain opening pass closing count)
      desk := by
  have closed (dev : Dev) (valid : 0 ≤ fdOf dev) (code : Int) (after : Desk)
      (still : Open [fdOf dev] after) : Meets (order sensor) (fun _ after => Open [] after)
        (closing dev >>= fun _ => pure code) after := by
    rw [meets_bind, closes]
    exact closeDescriptor_meets (fdOf dev) [] after still valid
  rw [clientMain, meets_bind]
  refine meets_mono _ _ _ _ _ opened ?_
  rintro (_ | dev) after ⟨failed, worked⟩
  · exact failed rfl
  obtain ⟨valid, still⟩ := worked dev rfl
  rw [meets_bind]
  refine meets_open _ rfl _ after still (fun sock next negative rest => ?_)
    fun sock next positive _ both => ?_
  · rw [if_pos negative]
    exact closed dev valid 1 next rest
  · rw [if_neg (by omega), meets_bind]
    refine meets_mono _ _ _ _ _ (keeps_passes (fun _ => kept dev sock.ret) count () next both) ?_
    intro _ last same
    rw [meets_bind]
    exact meets_close sock.ret _ last same fun _ ends rest => closed dev valid 0 ends rest

theorem dht11Main_meets (cfg : Dht11Config) (count : Nat) (desk : Desk) (holds : Open [] desk) :
    Meets (order dht11) (fun _ after => Open [] after) (dht11Main cfg count) desk := by
  have closed (dev : DHT11Dev) (code : Int) :
      Keeps (order dht11) (Open []) (dht11Close dev >>= fun _ => pure code) :=
    keeps_bind (dht11Close_keeps [] dev) fun _ => keeps_pure code
  refine keeps_bind (dht11Open_keeps [] cfg.gpioPin) (fun first => ?_) desk holds
  refine keeps_ite _ (keeps_pure 1) (keeps_bind (keeps_pause [] _) fun _ => ?_)
  intro after same
  rw [meets_bind]
  refine meets_open _ rfl [] after same (fun sock next negative rest => ?_)
    fun sock next positive _ held => ?_
  · rw [if_pos negative]
    exact closed first.2 1 next rest
  · rw [if_neg (by omega), meets_bind]
    refine meets_mono _ _ _ _ _ (keeps_passes (dht11Pass_keeps cfg sock.ret) count _ next held) ?_
    intro final last still
    rw [meets_bind]
    exact meets_close sock.ret [] last still fun _ ends rest => closed final.2 0 ends rest

/-! ## Runs -/

/-- A client with its settings file and the number of its passes. -/
inductive Client where
  | bmp180 (file : Option Bytes) (count : Nat)
  | htu21d (file : Option Bytes) (count : Nat)
  | gy63 (file : Option Bytes) (count : Nat)
  | dht11 (file : Option Bytes) (count : Nat)

def Client.sensor : Client → Sensor
  | .bmp180 _ _ => SensorClients.bmp180
  | .htu21d _ _ => SensorClients.htu21d
  | .gy63 _ _ => SensorClients.gy63
  | .dht11 _ _ => SensorClients.dht11

def Client.main : Client → Device Int
  | .bmp180 file count => bmp180Main (ClientConfig.bmp180.readConfig file) count
  | .htu21d file count => htu21dMain (ClientConfig.htu21d.readConfig file) count
  | .gy63 file count => gy63Main (ClientConfig.gy63.readConfig file) count
  | .dht11 file count => dht11Main (ClientConfig.dht11.readConfig file) count

/-- Nothing is open and no sensor at work. -/
def Client.begins (client : Client) : Course Call Answer Desk Int := ⟨client.main, ⟨[], none⟩⟩

theorem main_meets (client : Client) :
    Meets (order client.sensor) (fun _ after => Open [] after) client.main ⟨[], none⟩ := by
  cases client with
  | bmp180 file count =>
      refine clientMain_meets Bmp180Dev.fd _ _ _ count _ ?_ bmp180Pass_keeps fun _ => rfl
      exact openDevice_meets _ _ _ _ (fun _ _ => rfl) (bmp180Configure_keeps _) _ rfl
  | htu21d file count =>
      refine clientMain_meets id _ _ _ count _ ?_ htu21dPass_keeps fun _ => rfl
      exact openDevice_meets _ _ _ _ (fun _ _ => rfl) (htu21dSelect_keeps _) _ rfl
  | gy63 file count =>
      refine clientMain_meets GY63Dev.spiFd _ _ _ count _ ?_ (gy63Pass_keeps _) fun _ => rfl
      exact openDevice_meets _ _ _ _ (fun _ _ => rfl) gy63Configure_keeps _ rfl
  | dht11 file count => exact dht11Main_meets _ count _ rfl

/-- A first read of the temperature is refused and a second taken; the humidity is not to be had. -/
def answered : List Answer :=
  [⟨3, []⟩, ⟨0, []⟩, ⟨4, []⟩, ⟨1, []⟩, ⟨0, []⟩, ⟨-1, []⟩, ⟨0, []⟩, ⟨3, [0x68, 0x3A, 0x7C]⟩,
    ⟨18, []⟩, ⟨-1, []⟩, ⟨0, []⟩, ⟨0, []⟩, ⟨0, []⟩]

end SensorNode.SensorClients
