import Mathlib.Tactic.NormNum.Ineq

/-!
The DHT11 kernel module: `wait_for_level` and `dht11_read_data` over a data line
that is a function of time. Time is in nanoseconds, as `ktime_t` has it, and starts
when the host releases the line. Polling is instantaneous: the line is read at
every nanosecond.
-/

namespace SensorNode.Dht11Sampling

/-- The level of the data line at a time; `true` is high. -/
abbrev Line := Nat → Bool

/-! ## The driver -/

def ETIMEDOUT : Int := 110

def ktimeUsDelta (later earlier : Nat) : Nat := (later - earlier) / 1000

/-- What `wait_for_level` returns, and when. -/
structure Wait where
  result : Int
  now : Nat

def poll (line : Line) (expected : Bool) (timeoutUs start now : Nat) : Wait :=
  if line now = expected then
    if timeoutUs < ktimeUsDelta now start then ⟨-ETIMEDOUT, now⟩
    else poll line expected timeoutUs start (now + 1)
  else ⟨ktimeUsDelta now start, now⟩
termination_by start + (timeoutUs + 1) * 1000 - now
decreasing_by
  simp only [ktimeUsDelta] at *
  omega

/-- It waits while the line has the level `expected`. -/
def waitForLevel (line : Line) (expected : Bool) (timeoutUs now : Nat) : Wait :=
  poll line expected timeoutUs now now

structure Sampling where
  data : List UInt8
  now : Nat

def readBit (line : Line) (i : Nat) (state : Sampling) : Sampling :=
  let ready := waitForLevel line true 70 state.now
  let pulse := waitForLevel line false 150 ready.now
  { data := state.data.modify (i / 8) fun byte =>
      if 50 < pulse.result then (byte <<< (1 : UInt8)) ||| 1 else byte <<< (1 : UInt8)
    now := pulse.now }

def readBits (line : Line) (state : Sampling) : (count : Nat) → Sampling
  | 0 => state
  | count + 1 => readBit line count (readBits line state count)

/-- The return value and `data`. The results of the two waits for the response are
not looked at. -/
def dht11ReadData (line : Line) : Int × List UInt8 :=
  let released := 40 * 1000
  let answered := waitForLevel line true 100 released
  let response := waitForLevel line false 100 answered.now
  (0, (readBits line ⟨List.replicate 5 0, response.now⟩ 40).data)

/-! ## The sensor -/

def sentBit (frame : Vector UInt8 5) (k : Nat) : Bool :=
  (frame.toList.getD (k / 8) 0).toNat.testBit (7 - k % 8)

/-- A line that follows the protocol for a frame. "About 80" is taken as 80 give or
take 20 microseconds; nothing is said of the line after its last fall. -/
structure Waveform (frame : Vector UInt8 5) where
  level : Line
  answer : Nat
  responseLow : Nat
  responseHigh : Nat
  width : Nat → Nat
  /-- When the line falls before a bit, or after the last one. -/
  fall : Nat → Nat
  answer_range : 20000 ≤ answer ∧ answer ≤ 40000
  low_range : 60000 ≤ responseLow ∧ responseLow ≤ 100000
  high_range : 60000 ≤ responseHigh ∧ responseHigh ≤ 100000
  width_zero : ∀ k < 40, sentBit frame k = false → 26000 ≤ width k ∧ width k ≤ 28000
  width_one : ∀ k < 40, sentBit frame k = true → width k = 70000
  fall_first : fall 0 = answer + responseLow + responseHigh
  fall_next : ∀ k < 40, fall (k + 1) = fall k + 50000 + width k
  idle : ∀ time < answer, level time = true
  responds : ∀ time, answer ≤ time → time < answer + responseLow → level time = false
  prepares : ∀ time, answer + responseLow ≤ time → time < fall 0 → level time = true
  separates : ∀ k < 40, ∀ time, fall k ≤ time → time < fall k + 50000 → level time = false
  sends : ∀ k < 40, ∀ time, fall k + 50000 ≤ time → time < fall (k + 1) → level time = true
  closes : level (fall 40) = false

/-! ## Waiting -/

section
variable (line : Line) (expected : Bool) (timeoutUs start : Nat)

theorem poll_edge (edge : Nat) (intime : edge ≤ start + (timeoutUs + 1) * 1000)
    (left : line edge ≠ expected) (now : Nat) (reached : now ≤ edge)
    (stays : ∀ time, now ≤ time → time < edge → line time = expected) :
    poll line expected timeoutUs start now = ⟨ktimeUsDelta edge start, edge⟩ := by
  induction distance : edge - now generalizing now with
  | zero =>
      have here : now = edge := by omega
      subst here
      rw [poll, if_neg left]
  | succ more ih =>
      have patient : ¬ timeoutUs < ktimeUsDelta now start := by
        unfold ktimeUsDelta
        omega
      rw [poll, if_pos (stays now le_rfl (by omega)), if_neg patient]
      apply ih (now + 1) (by omega) _ (by omega)
      intro time later
      exact stays time (by omega)

theorem poll_late (now : Nat) (early : now ≤ start + (timeoutUs + 1) * 1000)
    (stays : ∀ time, now ≤ time → time ≤ start + (timeoutUs + 1) * 1000 → line time = expected) :
    poll line expected timeoutUs start now =
      ⟨-ETIMEDOUT, start + (timeoutUs + 1) * 1000⟩ := by
  induction distance : start + (timeoutUs + 1) * 1000 - now generalizing now with
  | zero =>
      have here : now = start + (timeoutUs + 1) * 1000 := by omega
      have expired : timeoutUs < ktimeUsDelta now start := by
        unfold ktimeUsDelta
        omega
      rw [poll, if_pos (stays now le_rfl early), if_pos expired, here]
  | succ more ih =>
      have patient : ¬ timeoutUs < ktimeUsDelta now start := by
        unfold ktimeUsDelta
        omega
      rw [poll, if_pos (stays now le_rfl early), if_neg patient]
      apply ih (now + 1) (by omega) _ (by omega)
      intro time later
      exact stays time (by omega)

end

section
variable (line : Line) (expected : Bool) (timeoutUs now : Nat)

theorem waitForLevel_edge (edge : Nat) (intime : edge ≤ now + (timeoutUs + 1) * 1000)
    (left : line edge ≠ expected) (reached : now ≤ edge)
    (stays : ∀ time, now ≤ time → time < edge → line time = expected) :
    waitForLevel line expected timeoutUs now = ⟨ktimeUsDelta edge now, edge⟩ :=
  poll_edge line expected timeoutUs now edge intime left now reached stays

theorem waitForLevel_late
    (stays : ∀ time, now ≤ time → time ≤ now + (timeoutUs + 1) * 1000 → line time = expected) :
    waitForLevel line expected timeoutUs now = ⟨-ETIMEDOUT, now + (timeoutUs + 1) * 1000⟩ :=
  poll_late line expected timeoutUs now now (by omega) stays

theorem waitForLevel_other (other : line now ≠ expected) :
    waitForLevel line expected timeoutUs now = ⟨0, now⟩ := by
  rw [waitForLevel, poll, if_neg other]
  simp [ktimeUsDelta]

end

/-! ## What the driver measures -/

section
variable {frame : Vector UInt8 5} (wave : Waveform frame)

def Waveform.rise : Nat → Nat
  | 0 => wave.answer + wave.responseLow
  | k + 1 => wave.fall k + 50000

theorem rise_high (k : Nat) (sent : k ≤ 40) (time : Nat) (later : wave.rise k ≤ time)
    (sooner : time < wave.fall k) : wave.level time = true := by
  cases k with
  | zero => exact wave.prepares time later sooner
  | succ k => exact wave.sends k sent time later sooner

theorem width_positive (k : Nat) (sent : k < 40) : 0 < wave.width k := by
  cases bit : sentBit frame k with
  | false =>
      have range := wave.width_zero k sent bit
      omega
  | true =>
      rw [wave.width_one k sent bit]
      norm_num

theorem rise_fall (k : Nat) (sent : k ≤ 40) : wave.rise k < wave.fall k := by
  cases k with
  | zero =>
      have first := wave.fall_first
      have range := wave.high_range
      simp only [Waveform.rise]
      omega
  | succ k =>
      have next := wave.fall_next k sent
      have wide := width_positive wave k sent
      simp only [Waveform.rise]
      omega

theorem rise_edge (k : Nat) (sent : k ≤ 40) : wave.level (wave.rise k) ≠ false :=
  ne_of_eq_of_ne (rise_high wave k sent _ le_rfl (rise_fall wave k sent)) Bool.false_ne_true.symm

/-- The driver looks 40 microseconds after the release, when the sensor already holds
the line low, and leaves the response at the rise of its high part. -/
theorem response_ends :
    (waitForLevel wave.level false 100 (waitForLevel wave.level true 100 (40 * 1000)).now).now =
      wave.rise 0 := by
  have answer := wave.answer_range
  have low := wave.low_range
  have held : wave.level (40 * 1000) ≠ true :=
    ne_of_eq_of_ne (wave.responds _ (by omega) (by omega)) Bool.false_ne_true
  have near : wave.rise 0 = wave.answer + wave.responseLow := rfl
  have response := waitForLevel_edge wave.level false 100 (40 * 1000) (wave.rise 0) (by omega)
    (rise_edge wave 0 (by norm_num)) (by omega)
    (fun time later sooner => wave.responds time (by omega) sooner)
  rw [waitForLevel_other _ _ _ _ held, response]

theorem zeros_shift (i : Nat) :
    (List.replicate 5 (0 : UInt8)).modify i (fun byte => byte <<< (1 : UInt8)) =
      List.replicate 5 0 := by
  apply List.ext_getElem (by simp)
  intro n shifted plain
  simp only [List.getElem_modify, List.getElem_replicate]
  split <;> rfl

/-- Inside the high stretch before bit `k` a round measures nothing or the 50
microseconds between two bits, never the high that carries the bit. -/
theorem readBit_zero (i k : Nat) (sent : k < 40) (now : Nat) (later : wave.rise k ≤ now)
    (sooner : now < wave.fall k) :
    ∃ k' now', k' ≤ k + 1 ∧ wave.rise k' ≤ now' ∧ now' < wave.fall k' ∧
      readBit wave.level i ⟨List.replicate 5 0, now⟩ = ⟨List.replicate 5 0, now'⟩ := by
  have high := rise_high wave k sent.le
  have low := wave.separates k sent
  have fallen : wave.level (wave.fall k) ≠ true :=
    ne_of_eq_of_ne (low _ le_rfl (by omega)) Bool.false_ne_true
  by_cases intime : wave.fall k ≤ now + (70 + 1) * 1000
  · have ready := waitForLevel_edge wave.level true 70 now (wave.fall k) intime fallen sooner.le
      (fun time after => high time (later.trans after))
    have pulse := waitForLevel_edge wave.level false 150 (wave.fall k) (wave.rise (k + 1))
      (by simp only [Waveform.rise]; omega) (rise_edge wave (k + 1) sent)
      (by simp only [Waveform.rise]; omega) low
    have brief : ¬ (50 : Int) < ktimeUsDelta (wave.rise (k + 1)) (wave.fall k) := by
      simp [ktimeUsDelta, Waveform.rise]
    refine ⟨k + 1, wave.rise (k + 1), le_rfl, le_rfl, rise_fall wave (k + 1) sent, ?_⟩
    simp only [readBit, ready, pulse, if_neg brief, zeros_shift]
  · -- The high is longer than the wait: the line is still high when the second wait starts.
    have ready := waitForLevel_late wave.level true 70 now
      (fun time after before => high time (later.trans after) (by omega))
    have still : wave.level (now + (70 + 1) * 1000) ≠ false :=
      ne_of_eq_of_ne (high _ (by omega) (by omega)) Bool.false_ne_true.symm
    have pulse := waitForLevel_other wave.level false 150 _ still
    have none : ¬ (50 : Int) < 0 := by norm_num
    refine ⟨k, now + (70 + 1) * 1000, k.le_succ, by omega, by omega, ?_⟩
    simp only [readBit, ready, pulse, if_neg none, zeros_shift]

theorem readBits_zero (count : Nat) (rounds : count ≤ 40) :
    ∃ k now, k ≤ count ∧ wave.rise k ≤ now ∧ now < wave.fall k ∧
      readBits wave.level ⟨List.replicate 5 0, wave.rise 0⟩ count = ⟨List.replicate 5 0, now⟩ := by
  induction count with
  | zero =>
      exact ⟨0, wave.rise 0, le_rfl, le_rfl, rise_fall wave 0 (by norm_num), rfl⟩
  | succ count ih =>
      obtain ⟨k, now, behind, later, sooner, read⟩ := ih (by omega)
      obtain ⟨k', now', next, later', sooner', round⟩ :=
        readBit_zero wave count k (by omega) now later sooner
      refine ⟨k', now', by omega, later', sooner', ?_⟩
      rw [readBits, read, round]

theorem dht11ReadData_zero : dht11ReadData wave.level = (0, List.replicate 5 0) := by
  obtain ⟨k, now, _, _, _, read⟩ := readBits_zero wave 40 le_rfl
  rw [dht11ReadData, response_ends, read]

/-- The bytes sent are the bytes read exactly when all are zero. -/
theorem dht11ReadData_iff :
    (dht11ReadData wave.level).2 = frame.toList ↔ frame = Vector.replicate 5 0 := by
  rw [dht11ReadData_zero]
  constructor
  · intro same
    apply Vector.toList_inj.mp
    simpa using same.symm
  · intro zero
    simp [zero]

end

/-! ## A sensor -/

section
variable (frame : Vector UInt8 5)

def typicalWidth (k : Nat) : Nat := if sentBit frame k then 70000 else 27000

def typicalFall : Nat → Nat
  | 0 => 190000
  | k + 1 => typicalFall k + 50000 + typicalWidth frame k

theorem typicalFall_apart {first second : Nat} (before : first < second) :
    typicalFall frame first + 50000 + typicalWidth frame first ≤ typicalFall frame second := by
  induction before with
  | refl => exact le_rfl
  | step _ ih =>
      simp only [typicalFall]
      omega

/-- High while the answer is awaited, in the second half of the response, and in the
second part of each bit. -/
def typicalLevel (time : Nat) : Bool :=
  decide (time < 30000) || decide (110000 ≤ time ∧ time < 190000) ||
    (List.range 40).any fun k =>
      decide (typicalFall frame k + 50000 ≤ time ∧ time < typicalFall frame (k + 1))

theorem typicalFall_least (k : Nat) : 190000 ≤ typicalFall frame k := by
  cases k with
  | zero => exact le_rfl
  | succ k =>
      have apart := typicalFall_apart frame k.succ_pos
      simp only [typicalFall] at *
      omega

theorem typicalLevel_low (k time : Nat) (later : typicalFall frame k ≤ time)
    (sooner : time < typicalFall frame k + 50000) : typicalLevel frame time = false := by
  have least := typicalFall_least frame k
  have early : ¬ time < 30000 := by omega
  have prepared : ¬ (110000 ≤ time ∧ time < 190000) := by omega
  simp only [typicalLevel, early, prepared, decide_false, Bool.false_or, List.any_eq_false,
    decide_eq_true_eq]
  rintro other _ ⟨after, before⟩
  rcases lt_or_ge other k with earlier | notEarlier
  · have apart := typicalFall_apart frame earlier
    simp only [typicalFall] at before
    omega
  · rcases notEarlier.eq_or_lt with rfl | further
    · omega
    · have apart := typicalFall_apart frame further
      omega

def typicalWave : Waveform frame where
  level := typicalLevel frame
  answer := 30000
  responseLow := 80000
  responseHigh := 80000
  width := typicalWidth frame
  fall := typicalFall frame
  answer_range := by omega
  low_range := by omega
  high_range := by omega
  width_zero := by
    intro k _ bit
    simp [typicalWidth, bit]
  width_one := by
    intro k _ bit
    simp [typicalWidth, bit]
  fall_first := rfl
  fall_next := fun _ _ => rfl
  idle := by
    intro time sooner
    simp [typicalLevel, sooner]
  responds := by
    intro time later sooner
    have early : ¬ time < 30000 := by omega
    have unprepared : ¬ (110000 ≤ time ∧ time < 190000) := by omega
    simp only [typicalLevel, early, unprepared, decide_false, Bool.false_or, List.any_eq_false,
      decide_eq_true_eq]
    rintro k _ ⟨after, _⟩
    have least := typicalFall_least frame k
    omega
  prepares := by
    intro time later sooner
    have prepared : 110000 ≤ time ∧ time < 190000 := ⟨later, sooner⟩
    simp [typicalLevel, prepared]
  separates := fun k _ time => typicalLevel_low frame k time
  sends := by
    intro k sent time later sooner
    simp only [typicalLevel, Bool.or_eq_true, List.any_eq_true, decide_eq_true_eq]
    exact .inr ⟨k, List.mem_range.mpr sent, later, sooner⟩
  closes := typicalLevel_low frame 40 _ le_rfl (by omega)

end

/-- Forty percent humidity, twenty-five degrees and their checksum are lost. -/
theorem dht11ReadData_misses :
    ¬ ∀ (frame : Vector UInt8 5) (wave : Waveform frame),
      dht11ReadData wave.level = (0, frame.toList) := by
  intro always
  have read := always #v[40, 0, 25, 0, 65] (typicalWave _)
  rw [dht11ReadData_zero] at read
  exact absurd read (by decide)

end SensorNode.Dht11Sampling
