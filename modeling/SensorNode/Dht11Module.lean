import SensorNode.Dht11Sampling
import SensorNode.DecimalText

/-!
A read of the DHT11 kernel module's device: `dht11_read` on top of the sampling.
The waits return `-ETIMEDOUT`, but nobody looks: `dht11_read_data` always returns
zero, so the only error a read can return is that of the copy to the user.
-/

namespace SensorNode.Dht11Module

open LineStream DecimalText Dht11Sampling

/-! ## The driver -/

def EFAULT : Int := 14

structure Driver where
  lastSampleTime : Int
  deriving DecidableEq

/-- What a read of the device does: its return value, the text the user gets, and
whether it slept for a second first. -/
structure UserRead where
  value : Int
  text : Option Bytes
  slept : Bool
  driver : Driver
  deriving DecidableEq

def checksum (data : List UInt8) : UInt8 :=
  data.getD 0 0 + data.getD 1 0 + data.getD 2 0 + data.getD 3 0

def warning : Bytes := ascii "(checksum!)"

def outbuf (data : List UInt8) : Bytes :=
  ascii "Temp:" ++ decimal (data.getD 2 0).toNat ++ ascii "C Hum:" ++
    decimal (data.getD 0 0).toNat ++ ascii "% " ++
    (if checksum data ≠ data.getD 4 0 then warning else []) ++ [newline]

/-- `entered` and `sampled` are the two times it asks for, `copied` tells whether
`copy_to_user` copied everything. -/
def dht11Read (driver : Driver) (entered sampled : Int) (line : Line) (copied : Bool) :
    UserRead :=
  let slept := decide (driver.lastSampleTime ≠ 0 ∧
    (entered - driver.lastSampleTime).tdiv 1000 < 1000000)
  let (ret, data) := dht11ReadData line
  if ret ≠ 0 then ⟨ret, none, slept, driver⟩
  else if copied = false then ⟨-EFAULT, none, slept, ⟨sampled⟩⟩
  else ⟨(outbuf data).length, some (outbuf data), slept, ⟨sampled⟩⟩

/-! ## The waits -/

section
variable (line : Line)

def answerWait : Wait := waitForLevel line true 100 (40 * 1000)

def responseWait : Wait := waitForLevel line false 100 (answerWait line).now

def before (i : Nat) : Nat :=
  (readBits line ⟨List.replicate 5 0, (responseWait line).now⟩ i).now

def readyWait (i : Nat) : Wait := waitForLevel line true 70 (before line i)

def pulseWait (i : Nat) : Wait := waitForLevel line false 150 (readyWait line i).now

def waits : List Wait :=
  answerWait line :: responseWait line ::
    (List.range 40).flatMap fun i => [readyWait line i, pulseWait line i]

def TimesOut : Prop := ∃ wait ∈ waits line, wait.result = -ETIMEDOUT

def Unanswered : Prop := ∀ time, line time = true

/-- The waits are those of the code: the rounds measure what the pulse waits return. -/
theorem readBits_waits (i : Nat) :
    readBits line ⟨List.replicate 5 0, (responseWait line).now⟩ (i + 1) =
      { data := (readBits line ⟨List.replicate 5 0, (responseWait line).now⟩ i).data.modify (i / 8)
          fun byte => if 50 < (pulseWait line i).result then (byte <<< (1 : UInt8)) ||| 1
            else byte <<< (1 : UInt8)
        now := (pulseWait line i).now } := rfl

theorem dht11ReadData_waits : dht11ReadData line =
    (0, (readBits line ⟨List.replicate 5 0, (responseWait line).now⟩ 40).data) := rfl

theorem pulse_unanswered (unanswered : Unanswered line) (i : Nat) :
    ¬ 50 < (pulseWait line i).result := by
  have high (time : Nat) : line time ≠ false := by simp [unanswered time]
  rw [pulseWait, waitForLevel_other line false 150 _ (high _)]
  exact of_decide_eq_false rfl

theorem unanswered_zero (unanswered : Unanswered line) :
    (dht11ReadData line).2 = List.replicate 5 0 := by
  have rounds (count : Nat) :
      (readBits line ⟨List.replicate 5 0, (responseWait line).now⟩ count).data =
        List.replicate 5 0 := by
    induction count with
    | zero => rfl
    | succ count ih =>
        simp only [readBits_waits, ih, if_neg (pulse_unanswered line unanswered count)]
        exact zeros_shift _
  rw [dht11ReadData_waits]
  exact rounds 40

end

/-! ## What the user gets -/

section
variable (driver : Driver) (entered sampled : Int) (line : Line)

theorem dht11Read_failed :
    (dht11Read driver entered sampled line false).value = -EFAULT ∧
      (dht11Read driver entered sampled line false).text = none :=
  ⟨rfl, rfl⟩

theorem dht11Read_copied :
    (dht11Read driver entered sampled line true).value = (outbuf (dht11ReadData line).2).length ∧
      (dht11Read driver entered sampled line true).text = some (outbuf (dht11ReadData line).2) :=
  ⟨rfl, rfl⟩

end

def Warned (text : Bytes) : Prop := warning ++ [newline] <:+ text

theorem outbuf_warned_iff (data : List UInt8) :
    Warned (outbuf data) ↔ checksum data ≠ data.getD 4 0 := by
  unfold outbuf Warned
  constructor
  · intro ends same
    rw [if_neg (not_not.mpr same), List.append_nil] at ends
    have last := List.IsSuffix.trans (show [41, newline] <:+ warning ++ [newline] by decide) ends
    rw [List.append_assoc] at last
    have other : ascii "% " ++ [newline] = [37] ++ [32, newline] := by decide
    rw [other, ← List.append_assoc] at last
    have apart := (List.suffix_or_suffix_of_suffix last (List.suffix_append _ [32, newline]))
    revert apart
    decide
  · intro differ
    rw [if_pos differ, List.append_assoc _ warning]
    exact List.suffix_append _ _

/-- A wait timed out or the sensor did not answer at all. -/
def Faulty (line : Line) : Prop := Unanswered line ∨ TimesOut line

/-- Of a faulty line a read is refused exactly when the copy to the user fails, and an
unwarned reading is delivered exactly when the copy succeeds and the bytes, whatever
they are, add up. -/
theorem dht11Read_refuses_iff (driver : Driver) (entered sampled : Int) (line : Line)
    (copied : Bool) :
    ((Faulty line → (dht11Read driver entered sampled line copied).value < 0 ∧
        ∀ text, (dht11Read driver entered sampled line copied).text = some text → Warned text) ↔
      (Faulty line → copied = false)) ∧
    ((∃ text, (dht11Read driver entered sampled line copied).text = some text ∧ ¬ Warned text) ↔
      copied = true ∧ checksum (dht11ReadData line).2 = (dht11ReadData line).2.getD 4 0) := by
  cases copied with
  | false =>
      obtain ⟨value, text⟩ := dht11Read_failed driver entered sampled line
      rw [value, text]
      refine ⟨⟨fun _ _ => rfl, fun _ _ => ⟨by decide, ?_⟩⟩, ⟨?_, ?_⟩⟩
      · intro text absent
        cases absent
      · rintro ⟨text, absent, _⟩
        cases absent
      · rintro ⟨absurd', _⟩
        cases absurd'
  | true =>
      obtain ⟨value, text⟩ := dht11Read_copied driver entered sampled line
      rw [value, text]
      refine ⟨⟨?_, ?_⟩, ⟨?_, ?_⟩⟩
      · intro refused faulty
        have negative := (refused faulty).1
        omega
      · intro never faulty
        cases never faulty
      · rintro ⟨text, delivered, unwarned⟩
        rw [← Option.some.inj delivered] at unwarned
        exact ⟨rfl, not_not.mp (mt (outbuf_warned_iff _).mpr unwarned)⟩
      · rintro ⟨_, adds⟩
        exact ⟨_, rfl, fun warned => (outbuf_warned_iff _).mp warned adds⟩

/-- With no sensor on the line a read delivers zero degrees and zero percent. -/
theorem dht11Read_unanswered (driver : Driver) (entered sampled : Int) (line : Line)
    (unanswered : Unanswered line) :
    (dht11Read driver entered sampled line true).text =
      some (ascii "Temp:0C Hum:0% " ++ [newline]) := by
  rw [(dht11Read_copied driver entered sampled line).2, unanswered_zero line unanswered]
  decide

theorem dht11Read_disconnected : ¬ ∀ (driver : Driver) (entered sampled : Int) (line : Line)
    (copied : Bool), Faulty line →
    (dht11Read driver entered sampled line copied).value < 0 ∧
      ∀ text, (dht11Read driver entered sampled line copied).text = some text → Warned text := by
  intro always
  have unanswered : Unanswered fun _ => true := fun _ => rfl
  have warned := (always ⟨0⟩ 0 0 (fun _ => true) true (.inl unanswered)).2 _
    (dht11Read_unanswered ⟨0⟩ 0 0 _ unanswered)
  revert warned
  unfold Warned
  decide

end SensorNode.Dht11Module
