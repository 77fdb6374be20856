import SensorNode.ClientConfig
import SensorNode.LastSetting
import SensorNode.Dht11Decoding

/-!
The main loop of dht11-client and what it asks to sleep between two readings of the
sensor. A reading that worked is followed by the configured interval, a failed one by two
seconds, and the fifth failure in a row by a reopening and both. The interval is checked
as a `long` and kept as an `unsigned int`, so what was checked need not be what is slept.
-/

namespace SensorNode.Dht11Client

open LineStream IntegerText LastSetting ClientConfig
open Dht11Decoding (DHT11Data)

/-! ## The program -/

/-- What the program does that its device or the time notices; `read` has the data that
`dht11_read` delivered, if it did. -/
inductive Event where
  | openDevice (gpioPin : UInt32)
  | closeDevice
  | sleep (seconds : UInt32)
  | read (data : Option DHT11Data)
  | send (name : Bytes) (value : Rat)
  deriving DecidableEq

/-- What follows one `dht11_read`, and `consecutive_errors` after it. -/
def handle (cfg : Dht11Config) (consecutiveErrors : Nat) : Option DHT11Data → List Event × Nat
  | some data =>
      ([.send (ascii "dht11_temp") data.temperatureC, .send (ascii "dht11_rh") data.humidityRh,
        .sleep cfg.interval], 0)
  | none =>
      if 5 ≤ consecutiveErrors + 1 then
        ([.closeDevice, .sleep 2, .openDevice cfg.gpioPin, .sleep cfg.interval], 0)
      -- `continue`: the interval is left out.
      else ([.sleep 2], consecutiveErrors + 1)

def loop (cfg : Dht11Config) : Nat → List (Option DHT11Data) → List Event
  | _, [] => []
  | consecutiveErrors, outcome :: outcomes =>
      .read outcome :: (handle cfg consecutiveErrors outcome).1 ++
        loop cfg (handle cfg consecutiveErrors outcome).2 outcomes

def main (file : Option Bytes) (opens sockets : Bool) (outcomes : List (Option DHT11Data)) :
    List Event :=
  let cfg : Dht11Config := dht11.readConfig file
  if opens then
    if sockets then
      [.openDevice cfg.gpioPin, .sleep 1] ++ loop cfg 0 outcomes ++ [.closeDevice]
    else [.openDevice cfg.gpioPin, .sleep 1, .closeDevice]
  else [.openDevice cfg.gpioPin]

/-! ## Between two readings -/

def Event.seconds : Event → Nat
  | .sleep seconds => seconds.toNat
  | _ => 0

def slept (events : List Event) : Nat := (events.map Event.seconds).sum

def Quiet (events : List Event) : Prop := ∀ event ∈ events, ∀ data, event ≠ .read data

def Spaced (events : List Event) : Prop :=
  ∀ before first between second after,
    events = before ++ .read first :: between ++ .read second :: after → Quiet between →
      2 ≤ slept between

/-- No reading comes before two seconds of sleep. -/
def Rested (events : List Event) : Prop :=
  ∀ between second after, events = between ++ .read second :: after → Quiet between →
    2 ≤ slept between

theorem rested_append (front back : List Event) (quiet : Quiet front) (long : 2 ≤ slept front) :
    Rested (front ++ back) := by
  intro between second after split _
  rcases List.append_eq_append_iff.mp split with ⟨more, rfl, _⟩ | ⟨rest, rfl, found⟩
  · rw [slept, List.map_append, List.sum_append]
    exact Nat.le_add_right_of_le long
  · cases rest with
    | nil => simpa using long
    | cons event rest =>
        obtain ⟨rfl, _⟩ := List.cons.inj found
        exact absurd rfl (quiet (.read second) (by simp) second)

theorem spaced_read (first : Option DHT11Data) (events : List Event) (rested : Rested events)
    (spaced : Spaced events) : Spaced (.read first :: events) := by
  intro before first' between second after split quiet
  cases before with
  | nil =>
      simp only [List.nil_append, List.cons_append, List.cons.injEq] at split
      exact rested between second after split.2 quiet
  | cons event before =>
      simp only [List.cons_append, List.cons.injEq] at split
      exact spaced before first' between second after split.2 quiet

theorem spaced_append (front back : List Event) (quiet : Quiet front) (spaced : Spaced back) :
    Spaced (front ++ back) := by
  induction front with
  | nil => exact spaced
  | cons event front ih =>
      have later := ih fun event' member => quiet event' (List.mem_cons_of_mem event member)
      intro before first between second after split silent
      cases before with
      | nil =>
          simp only [List.nil_append, List.cons_append, List.cons.injEq] at split
          exact absurd split.1 (quiet event List.mem_cons_self first)
      | cons event' before =>
          simp only [List.cons_append, List.cons.injEq] at split
          exact later before first between second after (by simpa using split.2) silent

theorem spaced_quiet (events : List Event) (quiet : Quiet events) : Spaced events := by
  rintro before first between second after rfl _
  exact absurd rfl (quiet (.read first) (by simp) first)

/-! ## The loop -/

section
variable (cfg : Dht11Config)

theorem handle_quiet (consecutiveErrors : Nat) (outcome : Option DHT11Data) :
    Quiet (handle cfg consecutiveErrors outcome).1 := by
  unfold Quiet handle
  cases outcome with
  | some data => simp
  | none =>
      dsimp only
      split_ifs <;> simp

theorem handle_slept (consecutiveErrors : Nat) (outcome : Option DHT11Data) :
    slept (handle cfg consecutiveErrors outcome).1 =
      if outcome.isSome then cfg.interval.toNat
      else if 5 ≤ consecutiveErrors + 1 then 2 + cfg.interval.toNat else 2 := by
  unfold handle
  cases outcome with
  | some data => simp [slept, Event.seconds]
  | none =>
      simp only [Option.isSome_none, Bool.false_eq_true, if_false]
      split_ifs <;> simp [slept, Event.seconds]

theorem loop_spaced (long : 2 ≤ cfg.interval.toNat) (consecutiveErrors : Nat)
    (outcomes : List (Option DHT11Data)) :
    Spaced (loop cfg consecutiveErrors outcomes ++ [.closeDevice]) := by
  induction outcomes generalizing consecutiveErrors with
  | nil => exact spaced_quiet _ (by simp [loop, Quiet])
  | cons outcome outcomes ih =>
      have quiet := handle_quiet cfg consecutiveErrors outcome
      have enough : 2 ≤ slept (handle cfg consecutiveErrors outcome).1 := by
        rw [handle_slept]
        split_ifs <;> omega
      rw [loop, List.cons_append, List.cons_append, List.append_assoc]
      -- What follows this reading is long enough whatever comes after it.
      apply spaced_read
      · exact rested_append _ _ quiet enough
      · exact spaced_append _ _ quiet (ih _)

end

theorem main_spaced (file : Option Bytes) (opens sockets : Bool)
    (outcomes : List (Option DHT11Data))
    (long : 2 ≤ (show Dht11Config from dht11.readConfig file).interval.toNat) :
    Spaced (main file opens sockets outcomes) := by
  unfold main
  cases opens with
  | false => exact spaced_quiet _ (by simp [Quiet])
  | true =>
      cases sockets with
      | false => exact spaced_quiet _ (by simp [Quiet])
      | true =>
          simp only [if_true, List.append_assoc]
          exact spaced_append _ _ (by simp [Quiet]) (loop_spaced _ long 0 outcomes)

/-- Two readings that work are the interval apart, so the bound is one on the interval. -/
theorem interval_of_spaced (file : Option Bytes) (data : DHT11Data)
    (spaced : Spaced (main file true true [some data, some data])) :
    2 ≤ (show Dht11Config from dht11.readConfig file).interval.toNat := by
  have apart := spaced [.openDevice _, .sleep 1] (some data)
    [.send (ascii "dht11_temp") data.temperatureC, .send (ascii "dht11_rh") data.humidityRh,
      .sleep (show Dht11Config from dht11.readConfig file).interval] (some data) _ rfl
    (by simp [Quiet])
  simpa [slept, Event.seconds] using apart

/-! ## The interval -/

def checkedInterval (piece : Bytes) : Option Int :=
  (pieceSetting piece).bind fun read =>
    if read.1 = ascii "SEND_INTERVAL" ∧ 2 ≤ strtol 10 read.2 then some (strtol 10 read.2) else none

/-- The last interval that passes the check is not 0 or 1 as an `unsigned int`. -/
def KeepsInterval (file : Option Bytes) : Prop :=
  ∀ front piece back seconds, piecesOf file = front ++ piece :: back →
    checkedInterval piece = some seconds → (∀ later ∈ back, checkedInterval later = none) →
    2 ≤ seconds % 2 ^ 32

theorem readLine_interval (cfg : Dht11Config) (piece : Bytes) :
    (show Dht11Config from dht11.readLine cfg piece).interval =
      ((checkedInterval piece).map fun seconds => UInt32.ofNat seconds.toNat).getD
        cfg.interval := by
  unfold Client.readLine checkedInterval
  cases pieceSetting piece with
  | none => rfl
  | some read =>
      show (dht11Assign cfg read.1 read.2).interval = _
      unfold dht11Assign
      rw [Option.bind_some]
      by_cases named : read.1 = ascii "SEND_INTERVAL"
      · have other : ascii "SEND_INTERVAL" ≠ ascii "GPIO_PIN" := by decide
        simp only [named, if_neg other, if_true, true_and]
        split_ifs <;> simp
      · simp only [named, if_false, false_and]
        split_ifs <;> simp

theorem readConfig_interval (file : Option Bytes) :
    (show Dht11Config from dht11.readConfig file).interval =
      ((lastSetting checkedInterval (piecesOf file)).map fun seconds =>
        UInt32.ofNat seconds.toNat).getD 30 := by
  rw [← lastSetting_map]
  exact foldl_lastSetting _ Dht11Config.interval dht11.readLine readLine_interval _ _

theorem checkedInterval_least (piece : Bytes) (seconds : Int)
    (checked : checkedInterval piece = some seconds) : 2 ≤ seconds := by
  obtain ⟨read, _, kept⟩ := Option.bind_eq_some_iff.mp checked
  split at kept
  · next passes => exact Option.some.inj kept ▸ passes.2
  · cases kept

theorem interval_iff (file : Option Bytes) :
    2 ≤ (show Dht11Config from dht11.readConfig file).interval.toNat ↔ KeepsInterval file := by
  rw [readConfig_interval]
  constructor
  · intro long front piece back seconds split checked unset
    have last := (lastSetting_eq_some checkedInterval (piecesOf file) seconds).mpr
      ⟨front, piece, back, split, checked, unset⟩
    have least := checkedInterval_least piece seconds checked
    rw [last, Option.map_some, Option.getD_some, UInt32.toNat_ofNat'] at long
    omega
  · intro keeps
    cases last : lastSetting checkedInterval (piecesOf file) with
    | none => decide
    | some seconds =>
        obtain ⟨front, piece, back, split, checked, unset⟩ :=
          (lastSetting_eq_some checkedInterval (piecesOf file) seconds).mp last
        have long := keeps front piece back seconds split checked unset
        have least := checkedInterval_least piece seconds checked
        rw [Option.map_some, Option.getD_some, UInt32.toNat_ofNat']
        omega

/-- Every run keeps two seconds between readings exactly when the last interval that
passes the check still is one when stored. -/
theorem readings_spaced_iff (file : Option Bytes) :
    (∀ opens sockets outcomes, Spaced (main file opens sockets outcomes)) ↔
      KeepsInterval file := by
  rw [← interval_iff]
  constructor
  · exact fun spaced => interval_of_spaced file ⟨23, 55⟩ (spaced true true _)
  · exact fun long opens sockets outcomes => main_spaced file opens sockets outcomes long

/-- An interval of 2^32 seconds passes the check and is stored as 0. -/
theorem wide_interval_polls_at_once :
    ¬ Spaced (main (some (ascii "SEND_INTERVAL=4294967296\n")) true true
      [some ⟨23, 55⟩, some ⟨23, 55⟩]) := by
  intro spaced
  have long := interval_of_spaced _ _ spaced
  revert long
  decide

end SensorNode.Dht11Client
