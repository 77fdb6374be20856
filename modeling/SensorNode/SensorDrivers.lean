import SensorNode.CallProgram
import SensorNode.DriverAccuracy

/-!
The drivers of the four sensors down to their system calls: bmp180.c, htu21d.c, gy63.c and dht11.c,
as programs that open, configure, write, wait, read and close. What is computed of the bytes that
come back is computed by the models of the drivers' arithmetic.
-/

namespace SensorNode.SensorDrivers

open LineStream DecimalText CallProgram
open Bmp180Temperature (Bmp180Calib compensateTemperature)
open Bmp180Pressure (Oss PressureBytes compensatePressure)
open DriverAccuracy (celsius pascal Readings)
open PressureCompensation (AdcAnswer Reading ms5611ReadAdc)
open Dht11Decoding (TIMEOUT_US BIT_THRESHOLD byteAt)

/-! ## Calls -/

inductive Access where
  | readWrite
  | readOnly
  | writeOnly
  deriving DecidableEq

/-- The settings made with `ioctl`. -/
inductive Setting where
  | slave (addr : UInt8)
  | spiMode
  | spiBitsPerWord
  | spiMaxSpeed
  deriving DecidableEq

inductive Call where
  | openFile (path : Bytes) (access : Access)
  | access (path : Bytes)
  | ioctl (fd : Int) (setting : Setting)
  /-- `SPI_IOC_MESSAGE(1)`: as many bytes come back as are sent. -/
  | transfer (fd : Int) (tx : Bytes)
  | write (fd : Int) (data : Bytes)
  | read (fd : Int) (count : Nat)
  | seek (fd : Int)
  /-- `usleep`, `nanosleep`, `sleep` and the busy waits. -/
  | pause (micros : Nat)
  | socket
  | sendto (fd : Int) (message : Bytes)
  | close (fd : Int)
  deriving DecidableEq

/-- What a call returns, and what it leaves in the caller's buffer. -/
structure Answer where
  ret : Int
  bytes : Bytes
  deriving DecidableEq

abbrev Device := Program Call Answer
abbrev Try := Attempt Call Answer

def ask (call : Call) : Device Answer := perform call

def seconds (count : Nat) : Nat := count * 10 ^ 6

/-- How the three drivers on a bus open their device: a failure after `open` closes it again. -/
def openDevice {Made Dev : Type} (path : Bytes) (configure : Int → Try Made)
    (device : Int → Made → Dev) : Device (Option Dev) := do
  let opened ← ask (.openFile path .readWrite)
  if opened.ret < 0 then return none
  else
    match ← (configure opened.ret).run with
    | some made => return some (device opened.ret made)
    | none =>
        let _ ← ask (.close opened.ret)
        return none

def closeDescriptor (fd : Int) : Device Unit :=
  if 0 ≤ fd then do
    let _ ← ask (.close fd)
    return ()
  else return ()

/-! ## bmp180.c -/

def i2cReadByte (fd : Int) (reg : UInt8) : Try UInt8 := do
  let written ← ask (.write fd [reg])
  guard (written.ret = 1)
  let answer ← ask (.read fd 1)
  guard (answer.ret = 1)
  ofOption answer.bytes.head?

def i2cReadWordBe (fd : Int) (reg : UInt8) : Try UInt16 := do
  let written ← ask (.write fd [reg])
  guard (written.ret = 1)
  let answer ← ask (.read fd 2)
  guard (answer.ret = 2)
  ofOption <|
    match answer.bytes with
    | [high, low] => some ((high.toUInt16 <<< (8 : UInt16)) ||| low.toUInt16)
    | _ => none

def i2cWriteByte (fd : Int) (reg val : UInt8) : Try Unit := do
  let written ← ask (.write fd [reg, val])
  guard (written.ret = 2)

def calibrationWord (fd : Int) (reg : UInt8) : Try UInt16 := do
  let raw ← i2cReadWordBe fd reg
  guard (raw ≠ 0x0000 ∧ raw ≠ 0xFFFF)
  return raw

def loadCalibration (fd : Int) : Try Bmp180Calib := do
  let ac1 ← calibrationWord fd 0xAA
  let ac2 ← calibrationWord fd 0xAC
  let ac3 ← calibrationWord fd 0xAE
  let ac4 ← calibrationWord fd 0xB0
  let ac5 ← calibrationWord fd 0xB2
  let ac6 ← calibrationWord fd 0xB4
  let b1 ← calibrationWord fd 0xB6
  let b2 ← calibrationWord fd 0xB8
  let mb ← calibrationWord fd 0xBA
  let mc ← calibrationWord fd 0xBC
  let md ← calibrationWord fd 0xBE
  return ⟨ac1.toInt16, ac2.toInt16, ac3.toInt16, ac4, ac5, ac6, b1.toInt16, b2.toInt16,
    mb.toInt16, mc.toInt16, md.toInt16⟩

def readRawTemperature (fd : Int) : Try Int := do
  i2cWriteByte fd 0xF4 0x2E
  let _ ← ask (.pause 4500)
  let word ← i2cReadWordBe fd 0xF6
  return word.toNat

/-- `BMP180_CMD_READ_PRES(oss)`. -/
def pressureCommand (oss : Oss) : UInt8 := 0x34 ||| (UInt8.ofNat oss.value <<< (6 : UInt8))

def ossDelayUs : Oss → Nat
  | .ultraLowPower => 4500
  | .standard => 7500
  | .highRes => 13500
  | .ultraHighRes => 25500

def readRawPressure (fd : Int) (oss : Oss) : Try Int := do
  i2cWriteByte fd 0xF4 (pressureCommand oss)
  let _ ← ask (.pause (ossDelayUs oss))
  let msb ← i2cReadByte fd 0xF6
  let lsb ← i2cReadByte fd 0xF7
  let xlsb ← i2cReadByte fd 0xF8
  ofOption (Bmp180Pressure.readRawPressure oss (some ⟨msb, lsb, xlsb⟩))

structure Bmp180Dev where
  fd : Int
  calib : Bmp180Calib
  oss : Oss

def bmp180Configure (addr : UInt8) (fd : Int) : Try Bmp180Calib := do
  let selected ← ask (.ioctl fd (.slave addr))
  guard (0 ≤ selected.ret)
  let chipId ← i2cReadByte fd 0xD0
  guard (chipId = 0x55)
  loadCalibration fd

def bmp180Open (path : Bytes) (addr : UInt8) (oss : Oss) : Device (Option Bmp180Dev) :=
  openDevice path (bmp180Configure addr) fun fd calib => ⟨fd, calib, oss⟩

/-- Arithmetic that the code leaves undefined is a failure here. -/
def bmp180ReadTemperature (dev : Bmp180Dev) : Try Float32 := do
  let rawT ← readRawTemperature dev.fd
  let t ← ofOption (compensateTemperature dev.calib rawT)
  return celsius (.ofInt t)

def bmp180ReadPressure (dev : Bmp180Dev) : Try Float32 := do
  let rawT ← readRawTemperature dev.fd
  let rawP ← readRawPressure dev.fd dev.oss
  let p ← ofOption (compensatePressure dev.calib rawT rawP dev.oss)
  return pascal (.ofInt p)

def bmp180Close (dev : Bmp180Dev) : Device Unit := closeDescriptor dev.fd

/-! ## htu21d.c -/

def htu21dSelect (addr : UInt8) (fd : Int) : Try Unit := do
  let selected ← ask (.ioctl fd (.slave (if addr = 0 then 0x40 else addr)))
  guard (0 ≤ selected.ret)

def htu21dOpen (path : Bytes) (addr : UInt8) : Device (Option Int) :=
  openDevice path (htu21dSelect addr) fun fd _ => fd

/-- The value of a complete read that passes the checks. -/
def accepted (isTemp : Bool) (answer : Answer) : Option Float32 :=
  match answer.bytes with
  | [high, low, check] =>
      if answer.ret = 3 ∧ Htu21dReading.htu21dCrc8 [high, low] = check ∧
          Htu21dReading.rawWord high low ≠ 0xFFFC ∧ Htu21dReading.rawWord high low ≠ 0x0000 then
        some (SensorAccuracy.converted isTemp (Htu21dReading.rawWord high low))
      else none
  | _ => none

def attempts (fd : Int) (delayUs : Nat) (isTemp : Bool) : (left : Nat) → Device (Option Float32)
  | 0 => return none
  | left + 1 => do
      let _ ← ask (.pause delayUs)
      let answer ← ask (.read fd 3)
      match accepted isTemp answer with
      | some value => return some value
      | none => attempts fd delayUs isTemp left

def htu21dReadMeasurement (fd : Int) (cmd : UInt8) (delayUs : Nat) (isTemp : Bool) :
    Device (Option Float32) := do
  let written ← ask (.write fd [cmd])
  if written.ret ≠ 1 then return none
  else attempts fd delayUs isTemp 10

def htu21dReadTemperature (fd : Int) : Device (Option Float32) :=
  htu21dReadMeasurement fd 0xF3 100000 true

def htu21dReadHumidity (fd : Int) : Device (Option Float32) :=
  htu21dReadMeasurement fd 0xF5 50000 false

def htu21dClose (fd : Int) : Device Unit := closeDescriptor fd

/-! ## gy63.c -/

/-- The command and the answer go over the bus in one transfer. -/
def spiCmdRead (fd : Int) (cmd : UInt8) (rxLen : Nat) : Try Bytes := do
  let answer ← ask (.transfer fd (cmd :: List.replicate rxLen 0))
  guard (0 ≤ answer.ret)
  return answer.bytes.drop 1

def spiCmd (fd : Int) (cmd : UInt8) : Try Unit := do
  let _ ← spiCmdRead fd cmd 0
  return ()

def ms5611Reset (fd : Int) : Try Unit := do
  spiCmd fd 0x1E
  let _ ← ask (.pause 3000)
  return ()

/-- `MS5611_CMD_PROM_READ(n)`. -/
def promCommand (n : Nat) : UInt8 := 0xA0 ||| (UInt8.ofNat n <<< (1 : UInt8))

def ms5611ReadProm (fd : Int) : List Nat → Try (List UInt16)
  | [] => return []
  | n :: rest => do
      let buf ← spiCmdRead fd (promCommand n) 2
      let words ← ms5611ReadProm fd rest
      return (((buf.getD 0 0).toUInt16 <<< (8 : UInt16)) ||| (buf.getD 1 0).toUInt16) :: words

def ms5611ReadAdc (fd : Int) (convCmd : UInt8) : Try AdcAnswer := do
  spiCmd fd convCmd
  let _ ← ask (.pause 10000)
  let buf ← spiCmdRead fd 0x00 3
  return ⟨buf.getD 0 0, buf.getD 1 0, buf.getD 2 0⟩

/-- As in `PressureCompensation`, with the descriptor as a number. -/
structure GY63Dev where
  spiFd : Int
  prom : Vector UInt16 8

/-- A sensor that answers with one level only is not there. -/
def gy63Configure (fd : Int) : Try (List UInt16) := do
  let mode ← ask (.ioctl fd .spiMode)
  guard (0 ≤ mode.ret)
  let bits ← ask (.ioctl fd .spiBitsPerWord)
  guard (0 ≤ bits.ret)
  let speed ← ask (.ioctl fd .spiMaxSpeed)
  guard (0 ≤ speed.ret)
  ms5611Reset fd
  let prom ← ms5611ReadProm fd (List.range 8)
  guard (((prom.drop 1).take 6).all (· = 0x0000) = false)
  guard (((prom.drop 1).take 6).all (· = 0xFFFF) = false)
  return prom

def gy63Open (path : Bytes) : Device (Option GY63Dev) :=
  openDevice path gy63Configure fun fd prom => ⟨fd, .ofFn fun n => prom.getD n 0⟩

def gy63Read (dev : GY63Dev) : Try Reading := do
  guard (0 ≤ dev.spiFd)
  let d1 ← ms5611ReadAdc dev.spiFd 0x48
  let d2 ← ms5611ReadAdc dev.spiFd 0x58
  ofOption (PressureCompensation.gy63Read ⟨0, dev.prom⟩ (some d1) (some d2))

def gy63Close (dev : GY63Dev) : Device Unit := closeDescriptor dev.spiFd

/-! ## dht11.c -/

def gpioPath : Bytes := ascii "/sys/class/gpio"

def pinPath (pin : UInt32) : Bytes := gpioPath ++ ascii "/gpio" ++ decimal pin.toNat

def sysfsWrite (path val : Bytes) : Device Int := do
  let opened ← ask (.openFile path .writeOnly)
  if opened.ret < 0 then return -1
  else
    let written ← ask (.write opened.ret val)
    let _ ← ask (.close opened.ret)
    return if written.ret < 0 then -1 else 0

/-- A `char[8]` has room for seven digits. -/
def pinText (pin : UInt32) : Bytes := (decimal pin.toNat).take 7

def awaitPin (path : Bytes) : (left : Nat) → Device Unit
  | 0 => return ()
  | left + 1 => do
      let there ← ask (.access path)
      if there.ret = 0 then return ()
      else
        let _ ← ask (.pause 10000)
        awaitPin path left

def gpioExport (pin : UInt32) : Device Unit := do
  let there ← ask (.access (pinPath pin))
  if there.ret = 0 then return ()
  else
    let _ ← sysfsWrite (gpioPath ++ ascii "/export") (pinText pin)
    awaitPin (pinPath pin) 50

def gpioUnexport (pin : UInt32) : Device Unit := do
  let _ ← sysfsWrite (gpioPath ++ ascii "/unexport") (pinText pin)
  return ()

def gpioSetDirection (pin : UInt32) (dir : Bytes) : Device Unit := do
  let _ ← sysfsWrite (pinPath pin ++ ascii "/direction") dir
  return ()

def gpioWriteVal (pin : UInt32) (val : Bool) : Device Unit := do
  let _ ← sysfsWrite (pinPath pin ++ ascii "/value") (if val then ascii "1" else ascii "0")
  return ()

def gpioOpenValue (pin : UInt32) : Device Int := do
  let there ← ask (.access (pinPath pin ++ ascii "/value"))
  if there.ret ≠ 0 then return -1
  else
    let opened ← ask (.openFile (pinPath pin ++ ascii "/value") .readOnly)
    return opened.ret

def gpioReadFd (fd : Int) : Device Int := do
  let _ ← ask (.seek fd)
  let answer ← ask (.read fd 1)
  return Dht11Decoding.gpioReadFd (if answer.ret = 1 then answer.bytes.head? else none)

/-- The first loop of `wait_and_measure`; `left` more samples bring the counter to its limit. -/
def awaitLevel (fd level : Int) : (left : Nat) → Device Bool
  | 0 => return false
  | left + 1 => do
      let sample ← gpioReadFd fd
      if sample = level then return true
      else
        let _ ← ask (.pause 1)
        awaitLevel fd level left

def countLevel (fd level : Int) : (left : Nat) → Device UInt8
  | 0 => return TIMEOUT_US
  | left + 1 => do
      let sample ← gpioReadFd fd
      if sample = level then
        let _ ← ask (.pause 1)
        countLevel fd level left
      else return TIMEOUT_US - UInt8.ofNat (left + 1)

def waitAndMeasure (fd level : Int) : Device UInt8 := do
  let reached ← awaitLevel fd level TIMEOUT_US.toNat
  if reached then countLevel fd level TIMEOUT_US.toNat else return TIMEOUT_US

/-- A level that does not end in time ends the reading. -/
def measured (fd level : Int) : Try UInt8 := do
  let t ← waitAndMeasure fd level
  guard (t ≠ TIMEOUT_US)
  return t

def receiveBits (fd : Int) (buf : List UInt8) : (left : Nat) → Try (List UInt8)
  | 0 => return buf
  | left + 1 => do
      let _ ← measured fd 0
      let t ← measured fd 1
      let pushed := buf.modify ((39 - left) / 8) fun byte =>
        if BIT_THRESHOLD < t then (byte <<< (1 : UInt8)) ||| 1 else byte <<< (1 : UInt8)
      receiveBits fd pushed left

def receive (fd : Int) : Try Readings := do
  let _ ← measured fd 0
  let _ ← measured fd 1
  let buf ← receiveBits fd (List.replicate 5 0) 40
  guard (byteAt buf 4 = (byteAt buf 0 + byteAt buf 1 + byteAt buf 2 + byteAt buf 3) % 256)
  return {
    humidityRh := DriverAccuracy.decimal (buf.getD 0 0) (buf.getD 1 0)
    temperatureC := DriverAccuracy.decimal (buf.getD 2 0) (buf.getD 3 0) }

structure DHT11Dev where
  pi : Int
  gpioPin : UInt32

def dht11Open (pin : UInt32) : Device (Int × DHT11Dev) := do
  gpioExport pin
  gpioSetDirection pin (ascii "out")
  gpioWriteVal pin true
  let there ← ask (.access (pinPath pin ++ ascii "/value"))
  return (if there.ret ≠ 0 then -1 else 0, ⟨0, pin⟩)

def dht11Close (dev : DHT11Dev) : Device DHT11Dev := do
  gpioSetDirection dev.gpioPin (ascii "in")
  gpioUnexport dev.gpioPin
  return { dev with pi := -1 }

def dht11Read (dev : DHT11Dev) : Device (Option Readings) := do
  if dev.pi < 0 then return none
  else
    gpioSetDirection dev.gpioPin (ascii "out")
    gpioWriteVal dev.gpioPin false
    let _ ← ask (.pause 20000)
    gpioWriteVal dev.gpioPin true
    let _ ← ask (.pause 40)
    gpioSetDirection dev.gpioPin (ascii "in")
    let valFd ← gpioOpenValue dev.gpioPin
    if valFd < 0 then return none
    else
      let data ← (receive valFd).run
      let _ ← ask (.close valFd)
      return data

end SensorNode.SensorDrivers
