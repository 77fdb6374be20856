import SensorNode.IntegerText
import SensorNode.FieldLoader
import SensorNode.Bmp180Pressure

/-!
`read_config` of the four sensor clients: one loop over the pieces of a file that `fgets`
returns, and in each client a chain of keys. A client is described by its settings, each
with the key that sets it and the conversion of its value.
-/

namespace SensorNode.ClientConfig

open LineStream ConfigLoad FieldLoader IntegerText
open Bmp180Pressure (Oss)

/-! ## The loop -/

/-- One less than `sizeof(line)`. -/
def clientRoom : Nat := 126 + 1

/-- What stands before the first `=`, and what stands after it up to the line's end. -/
def keyValue (line : Bytes) : Option (Bytes × Bytes) :=
  if 61 ∈ line then
    some (line.takeWhile fun byte => byte != 61,
      (line.dropWhile fun byte => byte != 61).tail.takeWhile fun byte =>
        byte != 13 && byte != newline)
  else none

/-- The key and the value of what one `fgets` call returned. -/
def pieceSetting (line : Bytes) : Option (Bytes × Bytes) :=
  if line.head? = some 35 ∨ line.head? = some newline then none else keyValue (cstring line)

theorem keyValue_plain (line : Bytes) (key val : Bytes) (plain : nul ∉ line)
    (read : keyValue line = some (key, val)) : nul ∉ val := by
  unfold keyValue at read
  split at read
  · obtain ⟨_, rfl⟩ := Prod.mk.inj (Option.some.inj read)
    intro member
    have inside := List.mem_of_mem_tail ((List.takeWhile_sublist _).subset member)
    exact plain ((List.dropWhile_sublist _).subset inside)
  · cases read

theorem pieceSetting_plain (line : Bytes) (key val : Bytes)
    (read : pieceSetting line = some (key, val)) : nul ∉ val := by
  unfold pieceSetting at read
  split at read
  · cases read
  · exact keyValue_plain _ key val (nul_notMem_cstring line) read

/-- `char dev[64] = text`. -/
def initText (text : Bytes) : Vector UInt8 64 := Vector.ofFn fun place => text.getD place.val nul

theorem last_inside : 63 < 64 := Nat.lt_succ_self 63

/-- `strncpy(dev, val, dev_len - 1); dev[dev_len - 1] = '\0'`. -/
def copyText (dev : Vector UInt8 64) (val : Bytes) : Vector UInt8 64 :=
  (strncpy dev val).set 63 nul last_inside

/-! ## The four clients -/

structure Bmp180Config where
  i2cDev : Vector UInt8 64
  addr : UInt8
  oss : Oss
  deriving DecidableEq

def bmp180Defaults : Bmp180Config where
  i2cDev := initText (ascii "/dev/i2c-1")
  addr := 0x77
  oss := .standard

/-- `(bmp180_oss_t)parsed`, for what passed the check. -/
def ossOf : Nat → Oss
  | 0 => .ultraLowPower
  | 1 => .standard
  | 2 => .highRes
  | _ => .ultraHighRes

def bmp180Assign (cfg : Bmp180Config) (key val : Bytes) : Bmp180Config :=
  if key = ascii "I2C_DEV" then { cfg with i2cDev := copyText cfg.i2cDev val }
  else if key = ascii "I2C_ADDR" then
    if strtoul 0 val ≤ 0x7F then { cfg with addr := UInt8.ofNat (strtoul 0 val) } else cfg
  else if key = ascii "OSS" then
    if strtoul 0 val ≤ 3 then { cfg with oss := ossOf (strtoul 0 val) } else cfg
  else cfg

structure Htu21dConfig where
  i2cDev : Vector UInt8 64
  addr : UInt8
  deriving DecidableEq

def htu21dDefaults : Htu21dConfig where
  i2cDev := initText (ascii "/dev/i2c-1")
  addr := 0x40

def htu21dAssign (cfg : Htu21dConfig) (key val : Bytes) : Htu21dConfig :=
  if key = ascii "I2C_DEV" then { cfg with i2cDev := copyText cfg.i2cDev val }
  else if key = ascii "I2C_ADDR" then
    -- This client alone does not include `stdlib.h`.
    if strtoulImplicit 0 val ≤ 0x7F then { cfg with addr := UInt8.ofNat (strtoulImplicit 0 val) }
    else cfg
  else cfg

structure Gy63Config where
  spiDev : Vector UInt8 64
  interval : UInt32
  deriving DecidableEq

def gy63Defaults : Gy63Config where
  spiDev := initText (ascii "/dev/spidev0.0")
  interval := 10

def gy63Assign (cfg : Gy63Config) (key val : Bytes) : Gy63Config :=
  if key = ascii "SPI_DEV" then { cfg with spiDev := copyText cfg.spiDev val }
  else if key = ascii "SEND_INTERVAL" then
    if 0 < strtol 10 val then { cfg with interval := UInt32.ofNat (strtol 10 val).toNat } else cfg
  else cfg

structure Dht11Config where
  gpioPin : UInt32
  interval : UInt32
  deriving DecidableEq

def dht11Defaults : Dht11Config where
  gpioPin := 4
  interval := 30

def dht11Assign (cfg : Dht11Config) (key val : Bytes) : Dht11Config :=
  if key = ascii "GPIO_PIN" then
    if 0 ≤ strtol 10 val then { cfg with gpioPin := UInt32.ofNat (strtol 10 val).toNat } else cfg
  else if key = ascii "SEND_INTERVAL" then
    if 2 ≤ strtol 10 val then { cfg with interval := UInt32.ofNat (strtol 10 val).toNat } else cfg
  else cfg

/-! ## Settings and what they are converted with -/

inductive Value where
  | text (bytes : Bytes)
  | number (value : Int)
  deriving DecidableEq

/-- How a client converts a value, with the bound it checks. -/
inductive Conversion where
  | text
  | unsigned (most : Nat)
  | implicit (most : Nat)
  | long (least : Nat)

/-- What the code makes of a value. -/
def Conversion.takes : Conversion → Bytes → Option Value
  | .text, val => some (.text (val.take 63))
  | .unsigned most, val =>
      if strtoul 0 val ≤ most then some (.number (strtoul 0 val)) else none
  | .implicit most, val =>
      if strtoulImplicit 0 val ≤ most then some (.number (strtoulImplicit 0 val)) else none
  | .long least, val =>
      if least ≤ strtol 10 val then some (.number ((strtol 10 val).toNat % 2 ^ 32 : Nat)) else none

/-! ## A client by its settings -/

/-- The string in a device buffer. -/
def devText (dev : Vector UInt8 64) : Value := .text (cstring dev.toList)

theorem devText_copyText (dev : Vector UInt8 64) (val : Bytes) (plain : nul ∉ val) :
    devText (copyText dev val) = .text (val.take 63) := by
  have copied : (copyText dev val).toList = covered 64 val ++ [nul] := by
    unfold copyText
    rw [Vector.toList_set, strncpy_toList dev val (by decide)]
    have whole : (covered 64 val).length = 63 := by simp [covered]
    rw [List.set_append_right _ _ whole.le, whole]
    rfl
  have padded : covered 64 val = val.take 63 ++ List.replicate (63 - val.length) nul := by
    apply List.ext_getElem
    · simp [covered]
      omega
    · intro place inside _
      simp only [covered, List.getElem_map, List.getElem_range]
      by_cases front : place < (val.take 63).length
      · rw [List.getElem_append_left front, List.getElem_take]
        exact List.getD_eq_getElem _ _ (by simp at front; omega)
      · rw [List.getElem_append_right (by omega), List.getElem_replicate]
        apply List.getD_eq_default
        simp [covered] at front inside
        omega
  have front : nul ∉ val.take 63 := fun member => plain (List.mem_of_mem_take member)
  rw [devText, copied, padded, List.append_assoc, ← List.replicate_succ', List.replicate_succ,
    cstring, List.takeWhile_append_of_pos (bne_of_notMem front)]
  simp

theorem branch_value {Config : Type} (value : Config → Value) (p : Prop) [Decidable p]
    (changed cfg : Config) (given : Value) (set : p → value changed = given) :
    value (if p then changed else cfg) = (if p then some given else none).getD (value cfg) := by
  split
  · next holds => exact set holds
  · rfl

structure Client where
  Config : Type
  Setting : Type
  defaults : Config
  assign : Config → Bytes → Bytes → Config
  key : Setting → Bytes
  conversion : Setting → Conversion
  value : Setting → Config → Value
  assign_own : ∀ setting cfg val, nul ∉ val →
    value setting (assign cfg (key setting) val) =
      ((conversion setting).takes val).getD (value setting cfg)
  assign_other : ∀ setting cfg other val, other ≠ key setting →
    value setting (assign cfg other val) = value setting cfg

theorem ossOf_value (parsed : Nat) (checked : parsed ≤ 3) : (ossOf parsed).value = parsed := by
  interval_cases parsed <;> rfl

inductive Bmp180Setting where
  | i2cDev
  | addr
  | oss
  deriving DecidableEq

namespace Bmp180Setting

def key : Bmp180Setting → Bytes
  | .i2cDev => ascii "I2C_DEV"
  | .addr => ascii "I2C_ADDR"
  | .oss => ascii "OSS"

def conversion : Bmp180Setting → Conversion
  | .i2cDev => .text
  | .addr => .unsigned 0x7F
  | .oss => .unsigned 3

def value : Bmp180Setting → Bmp180Config → Value
  | .i2cDev, cfg => devText cfg.i2cDev
  | .addr, cfg => .number cfg.addr.toNat
  | .oss, cfg => .number cfg.oss.value

variable (setting : Bmp180Setting) (cfg : Bmp180Config)

theorem assign_own (val : Bytes) (plain : nul ∉ val) :
    setting.value (bmp180Assign cfg setting.key val) =
      (setting.conversion.takes val).getD (setting.value cfg) := by
  cases setting with
  | i2cDev =>
      exact devText_copyText cfg.i2cDev val plain
  | addr =>
      have branch : bmp180Assign cfg (ascii "I2C_ADDR") val = _ :=
        (if_neg (by decide)).trans (if_pos rfl)
      rw [key, branch]
      refine branch_value (value .addr) _ _ cfg _ fun checked => ?_
      have same : strtoul 0 val % 2 ^ 8 = strtoul 0 val := by omega
      rw [value, UInt8.toNat_ofNat', same]
  | oss =>
      have branch : bmp180Assign cfg (ascii "OSS") val = _ :=
        (if_neg (by decide)).trans ((if_neg (by decide)).trans (if_pos rfl))
      rw [key, branch]
      refine branch_value (value .oss) _ _ cfg _ fun checked => ?_
      rw [value, ossOf_value _ checked]

theorem assign_other (other val : Bytes) (differs : other ≠ setting.key) :
    setting.value (bmp180Assign cfg other val) = setting.value cfg := by
  unfold bmp180Assign
  cases setting with
  | i2cDev =>
      rw [key] at differs
      simp only [if_neg differs]
      split_ifs <;> simp only [value]
  | addr =>
      rw [key] at differs
      simp only [if_neg differs]
      split_ifs <;> simp only [value]
  | oss =>
      rw [key] at differs
      simp only [if_neg differs]
      split_ifs <;> simp only [value]

end Bmp180Setting

def bmp180 : Client where
  Config := Bmp180Config
  Setting := Bmp180Setting
  defaults := bmp180Defaults
  assign := bmp180Assign
  key := Bmp180Setting.key
  conversion := Bmp180Setting.conversion
  value := Bmp180Setting.value
  assign_own := Bmp180Setting.assign_own
  assign_other := Bmp180Setting.assign_other

inductive Htu21dSetting where
  | i2cDev
  | addr
  deriving DecidableEq

namespace Htu21dSetting

def key : Htu21dSetting → Bytes
  | .i2cDev => ascii "I2C_DEV"
  | .addr => ascii "I2C_ADDR"

def conversion : Htu21dSetting → Conversion
  | .i2cDev => .text
  | .addr => .implicit 0x7F

def value : Htu21dSetting → Htu21dConfig → Value
  | .i2cDev, cfg => devText cfg.i2cDev
  | .addr, cfg => .number cfg.addr.toNat

variable (setting : Htu21dSetting) (cfg : Htu21dConfig)

theorem assign_own (val : Bytes) (plain : nul ∉ val) :
    setting.value (htu21dAssign cfg setting.key val) =
      (setting.conversion.takes val).getD (setting.value cfg) := by
  cases setting with
  | i2cDev =>
      exact devText_copyText cfg.i2cDev val plain
  | addr =>
      have branch : htu21dAssign cfg (ascii "I2C_ADDR") val = _ :=
        (if_neg (by decide)).trans (if_pos rfl)
      rw [key, branch]
      refine branch_value (value .addr) _ _ cfg _ fun checked => ?_
      have same : strtoulImplicit 0 val % 2 ^ 8 = strtoulImplicit 0 val := by omega
      rw [value, UInt8.toNat_ofNat', same]

theorem assign_other (other val : Bytes) (differs : other ≠ setting.key) :
    setting.value (htu21dAssign cfg other val) = setting.value cfg := by
  unfold htu21dAssign
  cases setting with
  | i2cDev =>
      rw [key] at differs
      simp only [if_neg differs]
      split_ifs <;> simp only [value]
  | addr =>
      rw [key] at differs
      simp only [if_neg differs]
      split_ifs <;> simp only [value]

end Htu21dSetting

def htu21d : Client where
  Config := Htu21dConfig
  Setting := Htu21dSetting
  defaults := htu21dDefaults
  assign := htu21dAssign
  key := Htu21dSetting.key
  conversion := Htu21dSetting.conversion
  value := Htu21dSetting.value
  assign_own := Htu21dSetting.assign_own
  assign_other := Htu21dSetting.assign_other

inductive Gy63Setting where
  | spiDev
  | interval
  deriving DecidableEq

namespace Gy63Setting

def key : Gy63Setting → Bytes
  | .spiDev => ascii "SPI_DEV"
  | .interval => ascii "SEND_INTERVAL"

def conversion : Gy63Setting → Conversion
  | .spiDev => .text
  | .interval => .long 1

def value : Gy63Setting → Gy63Config → Value
  | .spiDev, cfg => devText cfg.spiDev
  | .interval, cfg => .number cfg.interval.toNat

variable (setting : Gy63Setting) (cfg : Gy63Config)

theorem assign_own (val : Bytes) (plain : nul ∉ val) :
    setting.value (gy63Assign cfg setting.key val) =
      (setting.conversion.takes val).getD (setting.value cfg) := by
  cases setting with
  | spiDev =>
      exact devText_copyText cfg.spiDev val plain
  | interval =>
      have branch : gy63Assign cfg (ascii "SEND_INTERVAL") val = _ :=
        (if_neg (by decide)).trans (if_pos rfl)
      rw [key, branch]
      refine branch_value (value .interval) _ _ cfg _ fun _ => ?_
      simp [value]

theorem assign_other (other val : Bytes) (differs : other ≠ setting.key) :
    setting.value (gy63Assign cfg other val) = setting.value cfg := by
  unfold gy63Assign
  cases setting with
  | spiDev =>
      rw [key] at differs
      simp only [if_neg differs]
      split_ifs <;> simp only [value]
  | interval =>
      rw [key] at differs
      simp only [if_neg differs]
      split_ifs <;> simp only [value]

end Gy63Setting

def gy63 : Client where
  Config := Gy63Config
  Setting := Gy63Setting
  defaults := gy63Defaults
  assign := gy63Assign
  key := Gy63Setting.key
  conversion := Gy63Setting.conversion
  value := Gy63Setting.value
  assign_own := Gy63Setting.assign_own
  assign_other := Gy63Setting.assign_other

inductive Dht11Setting where
  | gpioPin
  | interval
  deriving DecidableEq

namespace Dht11Setting

def key : Dht11Setting → Bytes
  | .gpioPin => ascii "GPIO_PIN"
  | .interval => ascii "SEND_INTERVAL"

def conversion : Dht11Setting → Conversion
  | .gpioPin => .long 0
  | .interval => .long 2

def value : Dht11Setting → Dht11Config → Value
  | .gpioPin, cfg => .number cfg.gpioPin.toNat
  | .interval, cfg => .number cfg.interval.toNat

variable (setting : Dht11Setting) (cfg : Dht11Config)

theorem assign_own (val : Bytes) (_ : nul ∉ val) :
    setting.value (dht11Assign cfg setting.key val) =
      (setting.conversion.takes val).getD (setting.value cfg) := by
  cases setting with
  | gpioPin =>
      have branch : dht11Assign cfg (ascii "GPIO_PIN") val = _ :=
        if_pos rfl
      rw [key, branch]
      refine branch_value (value .gpioPin) _ _ cfg _ fun _ => ?_
      simp [value]
  | interval =>
      have branch : dht11Assign cfg (ascii "SEND_INTERVAL") val = _ :=
        (if_neg (by decide)).trans (if_pos rfl)
      rw [key, branch]
      refine branch_value (value .interval) _ _ cfg _ fun _ => ?_
      simp [value]

theorem assign_other (other val : Bytes) (differs : other ≠ setting.key) :
    setting.value (dht11Assign cfg other val) = setting.value cfg := by
  unfold dht11Assign
  cases setting with
  | gpioPin =>
      rw [key] at differs
      simp only [if_neg differs]
      split_ifs <;> simp only [value]
  | interval =>
      rw [key] at differs
      simp only [if_neg differs]
      split_ifs <;> simp only [value]

end Dht11Setting

def dht11 : Client where
  Config := Dht11Config
  Setting := Dht11Setting
  defaults := dht11Defaults
  assign := dht11Assign
  key := Dht11Setting.key
  conversion := Dht11Setting.conversion
  value := Dht11Setting.value
  assign_own := Dht11Setting.assign_own
  assign_other := Dht11Setting.assign_other

/-! ## The file -/

def piecesOf (file : Option Bytes) : List Bytes := file.elim [] (linesOf clientRoom)

namespace Client

variable (client : Client)

def readLine (cfg : client.Config) (line : Bytes) : client.Config :=
  match pieceSetting line with
  | some (key, val) => client.assign cfg key val
  | none => cfg

/-- `read_config` over the settings that `main` starts with, if the file is there. -/
def readConfig (file : Option Bytes) : client.Config :=
  (piecesOf file).foldl client.readLine client.defaults

variable (setting : client.Setting)

/-- What the code sets from one piece. -/
def takes (line : Bytes) : Option Value :=
  (pieceSetting line).bind fun read =>
    if read.1 = client.key setting then (client.conversion setting).takes read.2 else none

theorem readLine_value (cfg : client.Config) (line : Bytes) :
    client.value setting (client.readLine cfg line) =
      (client.takes setting line).getD (client.value setting cfg) := by
  unfold readLine takes
  cases read : pieceSetting line with
  | none => rfl
  | some pair =>
      have plain := pieceSetting_plain line pair.1 pair.2 read
      by_cases named : pair.1 = client.key setting
      · simp only [Option.bind_some, if_pos named]
        rw [named]
        exact client.assign_own setting cfg pair.2 plain
      · simp only [Option.bind_some, if_neg named]
        exact client.assign_other setting cfg pair.1 pair.2 named

end Client

end SensorNode.ClientConfig
