import SensorNode.Dht11Sampling
import Mathlib.Data.List.GetD
import Mathlib.Data.Rat.Defs

/-!
The user-space DHT11 driver: `dht11_read` over the samples that successive reads of
the GPIO value give. Each measurement swallows the sample that ends a run, so every
run but the first starts one sample late; the offset is the same for all of them and
the threshold absorbs it.
-/

namespace SensorNode.Dht11Decoding

open Dht11Sampling

/-! ## The driver -/

/-- The byte that one read of the value file gives, none when it fails. -/
abbrev Sample := Option UInt8

def gpioReadFd (sample : Sample) : Int :=
  match sample with
  | none => -1
  | some c => if c = 49 then 1 else 0

def TIMEOUT_US : UInt8 := 255

def BIT_THRESHOLD : UInt8 := 16

/-- The first loop: whether the level came, and what is left to read. With nothing
left every further read fails, until the counter gives up. -/
def awaitLevel (level : Int) : UInt8 → List Sample → Bool × List Sample
  | _, [] => (false, [])
  | t, sample :: rest =>
      if gpioReadFd sample = level then (true, rest)
      else if t + 1 = TIMEOUT_US then (false, rest)
      else awaitLevel level (t + 1) rest

def countLevel (level : Int) : UInt8 → List Sample → UInt8 × List Sample
  | t, [] => (t, [])
  | t, sample :: rest =>
      if gpioReadFd sample = level then
        if t + 1 = TIMEOUT_US then (TIMEOUT_US, rest) else countLevel level (t + 1) rest
      else (t, rest)

def waitAndMeasure (level : Int) (samples : List Sample) : UInt8 × List Sample :=
  match awaitLevel level 0 samples with
  | (false, rest) => (TIMEOUT_US, rest)
  | (true, rest) => countLevel level 0 rest

structure Reception where
  buf : List UInt8
  rest : List Sample
  deriving DecidableEq

def receiveBit (i : Nat) (state : Reception) : Option Reception :=
  let low := waitAndMeasure 0 state.rest
  if low.1 = TIMEOUT_US then none
  else
    let high := waitAndMeasure 1 low.2
    if high.1 = TIMEOUT_US then none
    else some
      { buf := state.buf.modify (i / 8) fun byte =>
          if BIT_THRESHOLD < high.1 then (byte <<< (1 : UInt8)) ||| 1 else byte <<< (1 : UInt8)
        rest := high.2 }

def receiveBits (state : Reception) : (count : Nat) → Option Reception
  | 0 => some state
  | count + 1 => (receiveBits state count).bind (receiveBit count)

def receive (samples : List Sample) : Option (List UInt8) :=
  let low := waitAndMeasure 0 samples
  if low.1 = TIMEOUT_US then none
  else
    let high := waitAndMeasure 1 low.2
    if high.1 = TIMEOUT_US then none
    else (receiveBits ⟨List.replicate 5 0, high.2⟩ 40).map Reception.buf

structure DHT11Dev where
  pi : Int
  gpioPin : Nat
  deriving DecidableEq

/-- Exact decimals; the code adds and scales floats. -/
structure DHT11Data where
  temperatureC : Rat
  humidityRh : Rat
  deriving DecidableEq

def byteAt (buf : List UInt8) (i : Nat) : Nat := (buf.getD i 0).toNat

/-- The return value and `*data` after the call; `valFd` is what opening the value
file gave. -/
def dht11Read (dev : Option DHT11Dev) (data : Option DHT11Data) (valFd : Int)
    (samples : List Sample) : Int × Option DHT11Data :=
  match dev, data with
  | some dev, some old =>
      if dev.pi < 0 then (-1, some old)
      else if valFd < 0 then (-1, some old)
      else
        match receive samples with
        | none => (-1, some old)
        | some buf =>
            if byteAt buf 4 ≠
                (byteAt buf 0 + byteAt buf 1 + byteAt buf 2 + byteAt buf 3) % 256 then
              (-1, some old)
            else (0, some
              { humidityRh := byteAt buf 0 + byteAt buf 1 / 10
                temperatureC := byteAt buf 2 + byteAt buf 3 / 10 })
  | _, _ => (-1, data)

/-! ## The sensor -/

def high : Sample := some 49

def low : Sample := some 48

/-- The runs of samples that carry a frame, each within what the measurement can count. -/
structure Transmission (frame : Vector UInt8 5) where
  idle : Nat
  responseLow : Nat
  responseHigh : Nat
  bitLow : Nat → Nat
  bitHigh : Nat → Nat
  /-- What is sampled after the low that ends the last bit. -/
  after : List Sample
  idle_range : idle ≤ 254
  low_range : 1 ≤ responseLow ∧ responseLow ≤ 255
  high_range : 2 ≤ responseHigh ∧ responseHigh ≤ 256
  bit_low : ∀ k < 40, 2 ≤ bitLow k ∧ bitLow k ≤ 256
  bit_zero : ∀ k < 40, sentBit frame k = false → 2 ≤ bitHigh k ∧ bitHigh k ≤ 18
  bit_one : ∀ k < 40, sentBit frame k = true → 19 ≤ bitHigh k ∧ bitHigh k ≤ 256

section
variable {frame : Vector UInt8 5} (sent : Transmission frame)

def Transmission.bits (k : Nat) : (left : Nat) → List Sample
  | 0 => low :: sent.after
  | left + 1 => List.replicate (sent.bitLow k) low ++
      (List.replicate (sent.bitHigh k) high ++ Transmission.bits (k + 1) left)

def Transmission.stream : List Sample :=
  List.replicate sent.idle high ++ (List.replicate sent.responseLow low ++
    (List.replicate sent.responseHigh high ++ sent.bits 0 40))

end

/-! ## Measuring a run -/

theorem counted (n : Nat) (small : n ≤ 254) : UInt8.ofNat n ≠ TIMEOUT_US := by
  intro same
  have value := congrArg UInt8.toNat same
  have limit : TIMEOUT_US.toNat = 255 := rfl
  rw [UInt8.toNat_ofNat', limit] at value
  omega

section
variable (level : Int) (sample other : Sample) (here : gpioReadFd sample = level)
  (apart : gpioReadFd other ≠ level)
include here apart

theorem awaitLevel_run (n t : Nat) (small : t + n ≤ 254) (rest : List Sample) :
    awaitLevel level (UInt8.ofNat t) (List.replicate n other ++ sample :: rest) = (true, rest) := by
  induction n generalizing t with
  | zero => simp only [List.replicate_zero, List.nil_append, awaitLevel, if_pos here]
  | succ n ih =>
      have next : UInt8.ofNat t + 1 = UInt8.ofNat (t + 1) := (UInt8.ofNat_add t 1).symm
      simp only [List.replicate_succ, List.cons_append, awaitLevel, if_neg apart, next,
        if_neg (counted (t + 1) (by omega))]
      exact ih (t + 1) (by omega)

theorem countLevel_run (n t : Nat) (small : t + n ≤ 254) (rest : List Sample) :
    countLevel level (UInt8.ofNat t) (List.replicate n sample ++ other :: rest) =
      (UInt8.ofNat (t + n), rest) := by
  induction n generalizing t with
  | zero => simp only [List.replicate_zero, List.nil_append, countLevel, if_neg apart, Nat.add_zero]
  | succ n ih =>
      have next : UInt8.ofNat t + 1 = UInt8.ofNat (t + 1) := (UInt8.ofNat_add t 1).symm
      simp only [List.replicate_succ, List.cons_append, countLevel, if_pos here, next,
        if_neg (counted (t + 1) (by omega))]
      rw [ih (t + 1) (by omega)]
      congr 2
      omega

/-- The first sample of the run is not counted, the first after it is swallowed. -/
theorem waitAndMeasure_run (idle n : Nat) (brief : idle ≤ 254) (positive : 1 ≤ n) (small : n ≤ 255)
    (rest : List Sample) :
    waitAndMeasure level
        (List.replicate idle other ++ (List.replicate n sample ++ other :: rest)) =
      (UInt8.ofNat (n - 1), rest) := by
  obtain ⟨n, rfl⟩ := Nat.exists_eq_succ_of_ne_zero (show n ≠ 0 by omega)
  have awaited := awaitLevel_run level sample other here apart idle 0 (by omega)
    (List.replicate n sample ++ other :: rest)
  have measured := countLevel_run level sample other here apart n 0 (by omega) rest
  rw [Nat.zero_add] at measured
  rw [List.replicate_succ, List.cons_append, waitAndMeasure]
  change awaitLevel level 0 _ = _ at awaited
  rw [awaited]
  exact measured

end

/-! ## One bit -/

def pushBit (bit : Bool) (byte : UInt8) : UInt8 :=
  if bit then (byte <<< (1 : UInt8)) ||| 1 else byte <<< (1 : UInt8)

theorem pushBit_toNat (bit : Bool) (byte : UInt8) (small : byte.toNat < 128) :
    (pushBit bit byte).toNat = 2 * byte.toNat + bit.toNat := by
  have shifted : (byte <<< (1 : UInt8)).toNat = byte.toNat <<< 1 := by
    rw [UInt8.toNat_shiftLeft]
    show byte.toNat <<< 1 % 2 ^ 8 = _
    omega
  cases bit with
  | false =>
      show (byte <<< (1 : UInt8)).toNat = _
      rw [shifted]
      simp [Nat.shiftLeft_eq, Nat.mul_comm]
  | true =>
      show ((byte <<< (1 : UInt8)) ||| 1).toNat = _
      rw [UInt8.toNat_or, shifted]
      have joined := Nat.shiftLeft_add_eq_or_of_lt (show 1 < 2 ^ 1 by norm_num) byte.toNat
      rw [Nat.shiftLeft_eq] at *
      exact joined.symm.trans (by simp [Nat.mul_comm])

section
variable (frame : Vector UInt8 5)

def frameByte (j : Nat) : Nat := (frame.toList.getD j 0).toNat

/-- Of each byte the buffer holds the bits sent before bit `k`. -/
structure Gathered (k : Nat) (buf : List UInt8) : Prop where
  five : buf.length = 5
  bytes : ∀ j < 5, (buf.getD j 0).toNat = frameByte frame j / 2 ^ (8 - min 8 (k - 8 * j))

theorem frameByte_small (j : Nat) : frameByte frame j < 256 := UInt8.toNat_lt _

theorem gathered_none : Gathered frame 0 (List.replicate 5 0) := by
  refine ⟨rfl, ?_⟩
  intro j inside
  have small := frameByte_small frame j
  have empty : (List.replicate 5 (0 : UInt8)).getD j 0 = 0 := by
    rw [List.getD_eq_getElem _ _ (by simpa using inside), List.getElem_replicate]
  have whole : 8 - min 8 (0 - 8 * j) = 8 := by omega
  rw [empty, whole]
  exact (Nat.div_eq_of_lt small).symm

theorem gathered_all (buf : List UInt8) (all : Gathered frame 40 buf) : buf = frame.toList := by
  apply List.ext_getElem
  · simpa using all.five
  · intro j inside _
    have five := all.five
    have byte := all.bytes j (by omega)
    have whole : 8 - min 8 (40 - 8 * j) = 0 := by omega
    rw [whole, pow_zero, Nat.div_one, frameByte] at byte
    have same := UInt8.toNat_inj.mp byte
    have there : j < frame.toList.length := by simpa [five] using inside
    rwa [List.getD_eq_getElem _ _ inside, List.getD_eq_getElem _ _ there] at same

theorem gathered_push (k : Nat) (buf : List UInt8) (so : Gathered frame k buf) :
    Gathered frame (k + 1) (buf.modify (k / 8) (pushBit (sentBit frame k))) := by
  refine ⟨by simpa using so.five, ?_⟩
  intro j inside
  have five := so.five
  have old := so.bytes j inside
  have position : j < buf.length := by omega
  rw [List.getD_eq_getElem _ _ position] at old
  rw [List.getD_eq_getElem _ _ (by simpa using position), List.getElem_modify]
  by_cases current : k / 8 = j
  · -- The byte being assembled is doubled and takes the next bit of the frame's byte.
    rw [if_pos current]
    have place : min 8 (k - 8 * j) = k % 8 := by omega
    have next : min 8 (k + 1 - 8 * j) = k % 8 + 1 := by omega
    have amount : 8 - k % 8 = 7 - k % 8 + 1 := by omega
    rw [place, amount, pow_succ, ← Nat.div_div_eq_div_mul] at old
    have small : frameByte frame j / 2 ^ (7 - k % 8) ≤ frameByte frame j := Nat.div_le_self _ _
    have byte := frameByte_small frame j
    have bit : (sentBit frame k).toNat = frameByte frame j / 2 ^ (7 - k % 8) % 2 := by
      rw [sentBit, Nat.toNat_testBit, current]
      rfl
    have last : 8 - (k % 8 + 1) = 7 - k % 8 := by omega
    rw [pushBit_toNat _ _ (by omega), old, bit, next, last]
    omega
  · rw [if_neg current, old]
    have same : min 8 (k + 1 - 8 * j) = min 8 (k - 8 * j) := by omega
    rw [same]

end

/-! ## The transmission -/

theorem high_high : gpioReadFd high = 1 := rfl

theorem low_low : gpioReadFd low = 0 := rfl

theorem high_not_low : gpioReadFd high ≠ 0 := by decide

theorem low_not_high : gpioReadFd low ≠ 1 := by decide

section
variable {frame : Vector UInt8 5} (sent : Transmission frame)

theorem bits_low (k left : Nat) (total : k + left = 40) :
    ∃ rest, sent.bits k left = low :: rest := by
  cases left with
  | zero => exact ⟨sent.after, rfl⟩
  | succ left =>
      have range := sent.bit_low k (by omega)
      obtain ⟨n, count⟩ := Nat.exists_eq_succ_of_ne_zero (show sent.bitLow k ≠ 0 by omega)
      rw [Transmission.bits, count, List.replicate_succ]
      exact ⟨_, rfl⟩

theorem bitHigh_range (k : Nat) (inside : k < 40) : 2 ≤ sent.bitHigh k ∧ sent.bitHigh k ≤ 256 := by
  cases bit : sentBit frame k with
  | false =>
      have range := sent.bit_zero k inside bit
      omega
  | true =>
      have range := sent.bit_one k inside bit
      omega

theorem threshold (k : Nat) (inside : k < 40) :
    BIT_THRESHOLD < UInt8.ofNat (sent.bitHigh k - 1 - 1) ↔ sentBit frame k = true := by
  have range := bitHigh_range sent k inside
  have limit : BIT_THRESHOLD.toNat = 16 := rfl
  rw [UInt8.lt_iff_toNat_lt, UInt8.toNat_ofNat', limit]
  cases bit : sentBit frame k with
  | false =>
      have short := sent.bit_zero k inside bit
      have unset : ¬ false = true := Bool.false_ne_true
      rw [iff_false_right unset]
      omega
  | true =>
      have long := sent.bit_one k inside bit
      rw [iff_true_right rfl]
      omega

/-- A round starts one sample into the low before its bit and ends one sample into the
low after it. -/
theorem receiveBit_sent (k left : Nat) (total : k + (left + 1) = 40) (buf : List UInt8)
    (rest : List Sample) (started : sent.bits k (left + 1) = low :: rest) :
    ∃ rest', sent.bits (k + 1) left = low :: rest' ∧
      receiveBit k ⟨buf, rest⟩ = some ⟨buf.modify (k / 8) (pushBit (sentBit frame k)), rest'⟩ := by
  have inside : k < 40 := by omega
  obtain ⟨rest', next⟩ := bits_low sent (k + 1) left (by omega)
  refine ⟨rest', next, ?_⟩
  have lows := sent.bit_low k inside
  have highs := bitHigh_range sent k inside
  obtain ⟨n, lowCount⟩ := Nat.exists_eq_succ_of_ne_zero (show sent.bitLow k ≠ 0 by omega)
  obtain ⟨m, highCount⟩ := Nat.exists_eq_succ_of_ne_zero (show sent.bitHigh k ≠ 0 by omega)
  have kind := threshold sent k inside
  rw [Transmission.bits, next, lowCount, highCount, List.replicate_succ,
    List.replicate_succ] at started
  rw [lowCount] at lows
  rw [highCount] at highs kind
  have left' : rest = List.replicate n low ++ high :: (List.replicate m high ++ low :: rest') :=
    (List.cons.inj started).2.symm
  -- The low lacks the sample swallowed before it, and so does the high.
  have first := waitAndMeasure_run 0 low high low_low high_not_low 0 n (by omega) (by omega)
    (by omega) (List.replicate m high ++ low :: rest')
  have second := waitAndMeasure_run 1 high low high_high low_not_high 0 m (by omega) (by omega)
    (by omega) rest'
  simp only [List.replicate_zero, List.nil_append] at first second
  have byte : (fun byte : UInt8 => if BIT_THRESHOLD < UInt8.ofNat (m - 1)
      then (byte <<< (1 : UInt8)) ||| 1 else byte <<< (1 : UInt8)) = pushBit (sentBit frame k) := by
    funext byte
    exact if_congr kind rfl rfl
  rw [left']
  simp only [receiveBit, first, second, if_neg (counted (n - 1) (by omega)),
    if_neg (counted (m - 1) (by omega)), byte]

/-- By induction on the rounds: each leaves the next one at the same offset. -/
theorem receiveBits_sent (rest : List Sample) (started : sent.bits 0 40 = low :: rest) (count : Nat)
    (rounds : count ≤ 40) :
    ∃ buf rest', receiveBits ⟨List.replicate 5 0, rest⟩ count = some ⟨buf, rest'⟩ ∧
      Gathered frame count buf ∧ sent.bits count (40 - count) = low :: rest' := by
  induction count with
  | zero => exact ⟨_, rest, rfl, gathered_none frame, started⟩
  | succ count ih =>
      obtain ⟨buf, rest', received, so, place⟩ := ih (by omega)
      have left : 40 - count = 40 - (count + 1) + 1 := by omega
      rw [left] at place
      obtain ⟨rest'', next, bit⟩ := receiveBit_sent sent count _ (by omega) buf rest' place
      refine ⟨_, rest'', ?_, gathered_push frame count buf so, next⟩
      rw [receiveBits, received, Option.bind_some, bit]

theorem receive_sent : receive sent.stream = some frame.toList := by
  obtain ⟨rest, started⟩ := bits_low sent 0 40 rfl
  have lows := sent.low_range
  have highs := sent.high_range
  obtain ⟨m, highCount⟩ := Nat.exists_eq_succ_of_ne_zero (show sent.responseHigh ≠ 0 by omega)
  rw [highCount] at highs
  have first := waitAndMeasure_run 0 low high low_low high_not_low sent.idle sent.responseLow
    sent.idle_range lows.1 lows.2 (List.replicate m high ++ low :: rest)
  have second := waitAndMeasure_run 1 high low high_high low_not_high 0 m (by omega) (by omega)
    (by omega) rest
  simp only [List.replicate_zero, List.nil_append] at second
  obtain ⟨buf, rest', received, all, _⟩ := receiveBits_sent sent rest started 40 le_rfl
  rw [receive, Transmission.stream, started, highCount, List.replicate_succ, List.cons_append]
  simp only [first, second, if_neg (counted (sent.responseLow - 1) (by omega)),
    if_neg (counted (m - 1) (by omega)), received, Option.map_some]
  rw [gathered_all frame buf all]

/-- What the sensor encodes is what the driver decodes, and a wrong sum changes nothing. -/
theorem dht11Read_sent (dev : DHT11Dev) (ready : 0 ≤ dev.pi) (valFd : Int) (opened : 0 ≤ valFd)
    (data : DHT11Data) :
    receive sent.stream = some frame.toList ∧
    (frameByte frame 4 = (frameByte frame 0 + frameByte frame 1 + frameByte frame 2 +
        frameByte frame 3) % 256 →
      dht11Read (some dev) (some data) valFd sent.stream = (0, some
        { humidityRh := frameByte frame 0 + frameByte frame 1 / 10
          temperatureC := frameByte frame 2 + frameByte frame 3 / 10 })) ∧
    (frameByte frame 4 ≠ (frameByte frame 0 + frameByte frame 1 + frameByte frame 2 +
        frameByte frame 3) % 256 →
      dht11Read (some dev) (some data) valFd sent.stream = (-1, some data)) := by
  have received := receive_sent sent
  have read : dht11Read (some dev) (some data) valFd sent.stream =
      if frameByte frame 4 ≠ (frameByte frame 0 + frameByte frame 1 + frameByte frame 2 +
          frameByte frame 3) % 256 then (-1, some data)
      else (0, some
        { humidityRh := frameByte frame 0 + frameByte frame 1 / 10
          temperatureC := frameByte frame 2 + frameByte frame 3 / 10 }) := by
    simp only [dht11Read, if_neg (not_lt.mpr ready), if_neg (not_lt.mpr opened), received]
    rfl
  refine ⟨received, ?_, ?_⟩
  · intro adds
    rw [read, if_neg (not_not.mpr adds)]
  · intro differs
    rw [read, if_pos differs]

end

def typical (frame : Vector UInt8 5) : Transmission frame where
  idle := 10
  responseLow := 80
  responseHigh := 80
  bitLow := fun _ => 50
  bitHigh := fun k => if sentBit frame k then 70 else 12
  after := []
  idle_range := by norm_num
  low_range := by norm_num
  high_range := by norm_num
  bit_low := fun _ _ => by norm_num
  bit_zero := by
    intro k _ bit
    rw [if_neg (ne_of_eq_of_ne bit Bool.false_ne_true)]
    norm_num
  bit_one := by
    intro k _ bit
    rw [if_pos bit]
    norm_num

/-- Forty percent humidity, twenty-five and a half degrees. -/
theorem dht11Read_sent_typical :
    dht11Read (some ⟨0, 4⟩) (some ⟨0, 0⟩) 3 (typical #v[40, 0, 25, 5, 70]).stream =
      (0, some { humidityRh := (40 : Nat) + (0 : Nat) / 10
                 temperatureC := (25 : Nat) + (5 : Nat) / 10 }) :=
  (dht11Read_sent (typical #v[40, 0, 25, 5, 70]) ⟨0, 4⟩ (by decide) 3 (by decide) ⟨0, 0⟩).2.1
    (by decide)

end SensorNode.Dht11Decoding
