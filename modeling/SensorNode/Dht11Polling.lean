import SensorNode.Dht11Decoding

/-!
The same driver against a line that never ends: each measurement polls an infinite
stream of samples, one a step. Whatever the samples, the counter stops both loops
before it can wrap, so a measurement takes at most 510 samples and a read at most 82
measurements. Over any long enough list of samples this is the driver of the lists.
-/

namespace SensorNode.Dht11Polling

open Dht11Decoding

abbrev Stream := Nat → Sample

/-! ## One measurement, sample by sample -/

/-- Where `wait_and_measure` is, with its counter. -/
inductive Poll where
  | awaiting (t : UInt8)
  | counting (t : UInt8)
  | returned (t : UInt8)
  deriving DecidableEq

def pollStep (level : Int) (sample : Sample) : Poll → Poll
  | .awaiting t =>
      if gpioReadFd sample = level then .counting 0
      else if t + 1 = TIMEOUT_US then .returned TIMEOUT_US else .awaiting (t + 1)
  | .counting t =>
      if gpioReadFd sample = level then
        if t + 1 = TIMEOUT_US then .returned TIMEOUT_US else .counting (t + 1)
      else .returned t
  | .returned t => .returned t

def polled (stream : Stream) (level : Int) (position : Nat) (state : Poll) : Nat → Poll
  | 0 => state
  | count + 1 => polled stream level (position + 1) (pollStep level (stream position) state) count

/-- The value returned and the position of the next sample, none without enough fuel. -/
def pollRun (stream : Stream) (level : Int) : (fuel : Nat) → Nat → Poll → Option (UInt8 × Nat)
  | _, position, .returned t => some (t, position)
  | 0, _, _ => none
  | fuel + 1, position, state =>
      pollRun stream level fuel (position + 1) (pollStep level (stream position) state)

def Poll.budget : Poll → Nat
  | .awaiting t => 255 - t.toNat + 255
  | .counting t => 255 - t.toNat
  | .returned _ => 0

def Poll.Counts : Poll → Prop
  | .awaiting t | .counting t => t.toNat ≤ 254
  | .returned _ => True

theorem counter_next (t : UInt8) (counts : t.toNat ≤ 254) : (t + 1).toNat = t.toNat + 1 := by
  rw [UInt8.toNat_add]
  change (t.toNat + 1) % 256 = t.toNat + 1
  omega

theorem counter_limit (t : UInt8) (counts : t.toNat ≤ 254) (going : t + 1 ≠ TIMEOUT_US) :
    (t + 1).toNat ≤ 254 := by
  have distinct : (t + 1).toNat ≠ 255 := fun limit => going (UInt8.toNat_inj.mp limit)
  have next := counter_next t counts
  omega

theorem pollStep_counts (level : Int) (sample : Sample) (state : Poll) (counts : state.Counts) :
    (pollStep level sample state).Counts ∧
      (pollStep level sample state).budget ≤ state.budget - 1 := by
  cases state with
  | awaiting t =>
      have small : t.toNat ≤ 254 := counts
      simp only [pollStep]
      split
      · exact ⟨Nat.zero_le 254, by simp only [Poll.budget, UInt8.toNat_zero]; omega⟩
      · split
        · exact ⟨trivial, Nat.zero_le _⟩
        · rename_i going
          refine ⟨counter_limit t small going, ?_⟩
          simp only [Poll.budget, counter_next t small]
          omega
  | counting t =>
      have small : t.toNat ≤ 254 := counts
      simp only [pollStep]
      split
      · split
        · exact ⟨trivial, Nat.zero_le _⟩
        · rename_i going
          refine ⟨counter_limit t small going, ?_⟩
          simp only [Poll.budget, counter_next t small]
          omega
      · exact ⟨trivial, Nat.zero_le _⟩
  | returned t => exact ⟨trivial, Nat.zero_le _⟩

section
variable (stream : Stream) (level : Int)

theorem polled_counts (count position : Nat) (state : Poll) (counts : state.Counts) :
    (polled stream level position state count).Counts := by
  induction count generalizing position state with
  | zero => exact counts
  | succ count ih => exact ih _ _ (pollStep_counts level _ state counts).1

/-- With the budget as fuel the call returns, within it, and not before the machine does. -/
theorem pollRun_returns (fuel position : Nat) (state : Poll) (counts : state.Counts)
    (enough : state.budget ≤ fuel) :
    ∃ t samples, pollRun stream level fuel position state = some (t, position + samples) ∧
      samples ≤ state.budget ∧ polled stream level position state samples = .returned t := by
  induction fuel generalizing position state with
  | zero =>
      cases state with
      | returned t => exact ⟨t, 0, rfl, Nat.zero_le _, rfl⟩
      | awaiting t => simp [Poll.budget] at enough
      | counting t =>
          have small : t.toNat ≤ 254 := counts
          simp only [Poll.budget] at enough
          omega
  | succ fuel ih =>
      have next := pollStep_counts level (stream position) state counts
      have left : 0 < state.budget → ∃ t samples,
          pollRun stream level fuel (position + 1) (pollStep level (stream position) state) =
            some (t, position + samples) ∧ samples ≤ state.budget ∧
          polled stream level position state samples = .returned t := by
        intro positive
        obtain ⟨t, samples, run, few, ends⟩ := ih (position + 1) _ next.1 (by omega)
        exact ⟨t, samples + 1, by rw [run, Nat.add_assoc, Nat.add_comm 1], by omega, ends⟩
      cases state with
      | returned t => exact ⟨t, 0, rfl, Nat.zero_le _, rfl⟩
      | awaiting t => exact left (by simp only [Poll.budget]; omega)
      | counting t =>
          have small : t.toNat ≤ 254 := counts
          exact left (by simp only [Poll.budget]; omega)

theorem pollRun_more (fuel more position : Nat) (state : Poll) (result : UInt8 × Nat)
    (run : pollRun stream level fuel position state = some result) (wider : fuel ≤ more) :
    pollRun stream level more position state = some result := by
  induction fuel generalizing more position state with
  | zero =>
      cases state with
      | returned t => cases more <;> exact run
      | awaiting t => exact nomatch run
      | counting t => exact nomatch run
  | succ fuel ih =>
      obtain ⟨more, rfl⟩ : ∃ less, more = less + 1 := ⟨more - 1, by omega⟩
      cases state with
      | returned t => exact run
      | awaiting t => exact ih more _ _ run (by omega)
      | counting t => exact ih more _ _ run (by omega)

/-! ## The driver of the lists -/

def window (stream : Stream) (position : Nat) : Nat → List Sample
  | 0 => []
  | count + 1 => stream position :: window stream (position + 1) count

def finish (level : Int) (samples : List Sample) : Poll → UInt8 × List Sample
  | .awaiting t =>
      match awaitLevel level t samples with
      | (false, rest) => (TIMEOUT_US, rest)
      | (true, rest) => countLevel level 0 rest
  | .counting t => countLevel level t samples
  | .returned t => (t, samples)

theorem finish_step (sample : Sample) (rest : List Sample) (state : Poll)
    (going : ∀ t, state ≠ .returned t) :
    finish level (sample :: rest) state = finish level rest (pollStep level sample state) := by
  cases state with
  | returned t => exact absurd rfl (going t)
  | awaiting t =>
      simp only [finish, awaitLevel, pollStep]
      split_ifs <;> rfl
  | counting t =>
      simp only [finish, countLevel, pollStep]
      split_ifs <;> rfl

theorem finish_window (fuel position next : Nat) (state : Poll) (value : UInt8)
    (run : pollRun stream level fuel position state = some (value, next)) :
    ∃ samples, next = position + samples ∧ ∀ extra,
      finish level (window stream position (samples + extra)) state =
        (value, window stream next extra) := by
  induction fuel generalizing position state with
  | zero =>
      cases state with
      | returned t =>
          cases run
          exact ⟨0, rfl, fun extra => by rw [Nat.zero_add]; rfl⟩
      | awaiting t => exact nomatch run
      | counting t => exact nomatch run
  | succ fuel ih =>
      have moved : (∀ t, state ≠ .returned t) →
          pollRun stream level fuel (position + 1) (pollStep level (stream position) state) =
            some (value, next) → ∃ samples, next = position + samples ∧ ∀ extra,
          finish level (window stream position (samples + extra)) state =
            (value, window stream next extra) := by
        intro going rest
        obtain ⟨samples, reached, spent⟩ := ih _ _ rest
        refine ⟨samples + 1, by omega, fun extra => ?_⟩
        rw [Nat.add_right_comm, window, finish_step level _ _ state going]
        exact spent extra
      cases state with
      | returned t =>
          cases run
          exact ⟨0, rfl, fun extra => by rw [Nat.zero_add]; rfl⟩
      | awaiting t => exact moved (fun t => Poll.noConfusion) run
      | counting t => exact moved (fun t => Poll.noConfusion) run

end

/-! ## One read -/

/-- The results of the calls so far, oldest first, and the position of the next sample. -/
structure Session where
  results : List UInt8
  position : Nat
  deriving DecidableEq

inductive Stop where
  | outOfFuel
  | timeout (session : Session)
  deriving DecidableEq

section
variable (stream : Stream) (fuel : Nat)

def measure (level : Int) (session : Session) : Except Stop (UInt8 × Session) :=
  match pollRun stream level fuel session.position (.awaiting 0) with
  | none => .error .outOfFuel
  | some (t, position) =>
      if t = TIMEOUT_US then .error (.timeout ⟨session.results ++ [t], position⟩)
      else .ok (t, ⟨session.results ++ [t], position⟩)

def spell (i : Nat) (t : UInt8) (buf : List UInt8) : List UInt8 :=
  buf.modify (i / 8) fun byte =>
    if BIT_THRESHOLD < t then (byte <<< (1 : UInt8)) ||| 1 else byte <<< (1 : UInt8)

def readBit (i : Nat) (state : List UInt8 × Session) : Except Stop (List UInt8 × Session) := do
  let (_, session) ← measure stream fuel 0 state.2
  let (t, session) ← measure stream fuel 1 session
  return (spell i t state.1, session)

def readBits (state : List UInt8 × Session) : (count : Nat) → Except Stop (List UInt8 × Session)
  | 0 => .ok state
  | count + 1 => do
      let state ← readBits state count
      readBit stream fuel count state

def readFrame : Except Stop (List UInt8 × Session) := do
  let (_, session) ← measure stream fuel 0 ⟨[], 0⟩
  let (_, session) ← measure stream fuel 1 session
  readBits stream fuel (List.replicate 5 0, session) 40

/-- `written` is what the call stored in `*data`, none when it left it alone. -/
structure Read where
  ret : Int
  written : Option DHT11Data
  session : Session
  deriving DecidableEq

/-- None without enough fuel. -/
def dht11ReadStream (dev : Option DHT11Dev) (data : Option DHT11Data) (valFd : Int) :
    Option Read :=
  match dev, data with
  | some dev, some _ =>
      if dev.pi < 0 then some ⟨-1, none, ⟨[], 0⟩⟩
      else if valFd < 0 then some ⟨-1, none, ⟨[], 0⟩⟩
      else
        match readFrame stream fuel with
        | .error .outOfFuel => none
        | .error (.timeout session) => some ⟨-1, none, session⟩
        | .ok (buf, session) =>
            if byteAt buf 4 ≠
                (byteAt buf 0 + byteAt buf 1 + byteAt buf 2 + byteAt buf 3) % 256 then
              some ⟨-1, none, session⟩
            else some ⟨0, some
              { humidityRh := byteAt buf 0 + byteAt buf 1 / 10
                temperatureC := byteAt buf 2 + byteAt buf 3 / 10 }, session⟩
  | _, _ => some ⟨-1, none, ⟨[], 0⟩⟩

end

/-! ## Every read ends -/

/-- The bytes that the second result of each of the first bits spells. -/
def spelled (results : List UInt8) : Nat → List UInt8
  | 0 => List.replicate 5 0
  | i + 1 => spell i (results.getD (2 * i + 3) 0) (spelled results i)

theorem spelled_append (results more : List UInt8) (count : Nat)
    (known : 2 * count + 2 ≤ results.length) :
    spelled (results ++ more) count = spelled results count := by
  induction count with
  | zero => rfl
  | succ i ih =>
      have inside : 2 * i + 3 < results.length := by omega
      rw [spelled, spelled, ih (by omega), List.getD_append _ _ _ _ inside]

structure Session.Sound (calls : Nat) (session : Session) : Prop where
  count : session.results.length = calls
  brief : session.position ≤ 510 * calls
  timely : ∀ t ∈ session.results, t < TIMEOUT_US

structure Session.Stopped (session : Session) : Prop where
  count : session.results.length ≤ 82
  brief : session.position ≤ 510 * session.results.length

/-- A timeout on both sides, or values that are related. -/
def Follows {α β : Type} (good : α → β → Prop) (run : Except Stop α) (list : Option β) : Prop :=
  (∃ value other, run = .ok value ∧ list = some other ∧ good value other) ∨
    ∃ session : Session, run = .error (.timeout session) ∧ list = none ∧ session.Stopped

theorem Follows.bind {α β γ δ : Type} {good : α → β → Prop} {better : γ → δ → Prop}
    {run : Except Stop α} {list : Option β} (follows : Follows good run list)
    {next : α → Except Stop γ} {after : β → Option δ}
    (step : ∀ value other, good value other → Follows better (next value) (after other)) :
    Follows better (run >>= next) (list.bind after) := by
  rcases follows with ⟨value, other, rfl, rfl, related⟩ | ⟨session, rfl, rfl, stopped⟩
  · exact step value other related
  · exact .inr ⟨session, rfl, rfl, stopped⟩

def listMeasure (level : Int) (samples : List Sample) : Option (UInt8 × List Sample) :=
  if (waitAndMeasure level samples).1 = TIMEOUT_US then none
  else some (waitAndMeasure level samples)

theorem receiveBit_eq (i : Nat) (state : Reception) :
    receiveBit i state = (listMeasure 0 state.rest).bind fun low =>
      (listMeasure 1 low.2).bind fun high => some ⟨spell i high.1 state.buf, high.2⟩ := by
  simp only [receiveBit, listMeasure]
  by_cases first : (waitAndMeasure 0 state.rest).1 = TIMEOUT_US
  · rw [if_pos first, if_pos first]
    rfl
  · rw [if_neg first, if_neg first, Option.bind_some]
    by_cases second : (waitAndMeasure 1 (waitAndMeasure 0 state.rest).2).1 = TIMEOUT_US
    · rw [if_pos second, if_pos second]
      rfl
    · rw [if_neg second, if_neg second]
      rfl

theorem receive_eq (samples : List Sample) :
    receive samples = (listMeasure 0 samples).bind fun low =>
      (listMeasure 1 low.2).bind fun high =>
        (receiveBits ⟨List.replicate 5 0, high.2⟩ 40).map Reception.buf := by
  simp only [receive, listMeasure]
  by_cases first : (waitAndMeasure 0 samples).1 = TIMEOUT_US
  · rw [if_pos first, if_pos first]
    rfl
  · rw [if_neg first, if_neg first, Option.bind_some]
    by_cases second : (waitAndMeasure 1 (waitAndMeasure 0 samples).2).1 = TIMEOUT_US
    · rw [if_pos second, if_pos second]
      rfl
    · rw [if_neg second, if_neg second]
      rfl

section
variable (stream : Stream) (fuel length : Nat) (enough : 510 ≤ fuel) (long : 510 * 82 ≤ length)

def Session.remaining (session : Session) : List Sample :=
  window stream session.position (length - session.position)

include enough long

theorem measure_follows (level : Int) (calls : Nat) (session : Session) (few : calls ≤ 81)
    (sound : session.Sound calls) :
    Follows (fun value other => other = (value.1, value.2.remaining stream length) ∧
        value.2.results = session.results ++ [value.1] ∧ value.2.Sound (calls + 1))
      (measure stream fuel level session)
      (listMeasure level (session.remaining stream length)) := by
  obtain ⟨t, samples, run, within, -⟩ := pollRun_returns stream level fuel session.position
    (.awaiting 0) (Nat.zero_le _) enough
  have brief : session.position + samples ≤ 510 * (calls + 1) := by
    have start := sound.brief
    have spent : samples ≤ 510 := within
    omega
  have listed : waitAndMeasure level (session.remaining stream length) =
      (t, window stream (session.position + samples) (length - (session.position + samples))) := by
    obtain ⟨taken, next, list⟩ := finish_window stream level fuel _ _ _ _ run
    have same : taken = samples := by omega
    have parts : length - session.position =
        samples + (length - (session.position + samples)) := by omega
    rw [Session.remaining, parts, ← list, same]
    rfl
  have count : (session.results ++ [t]).length = calls + 1 := by simp [sound.count]
  simp only [measure, run, listMeasure, listed]
  by_cases timeout : t = TIMEOUT_US
  · rw [if_pos timeout, if_pos timeout]
    have few82 : (session.results ++ [t]).length ≤ 82 := by omega
    exact .inr ⟨_, rfl, rfl, few82, by simpa only [count] using brief⟩
  · rw [if_neg timeout, if_neg timeout]
    have below : t < TIMEOUT_US := by
      have distinct : t.toNat ≠ 255 := fun limit => timeout (UInt8.toNat_inj.mp limit)
      have small := t.toNat_lt
      exact UInt8.lt_iff_toNat_lt.mpr (by change t.toNat < 255; omega)
    refine .inl ⟨_, _, rfl, rfl, rfl, rfl, count, brief, fun u member => ?_⟩
    rcases List.mem_append.mp member with earlier | last
    · exact sound.timely u earlier
    · exact (List.mem_singleton.mp last) ▸ below

theorem readBit_follows (i : Nat) (state : List UInt8 × Session) (bits : i < 40)
    (sound : state.2.Sound (2 * i + 2)) (bytes : state.1 = spelled state.2.results i) :
    Follows (fun value other => other = ⟨value.1, value.2.remaining stream length⟩ ∧
        value.2.Sound (2 * (i + 1) + 2) ∧ value.1 = spelled value.2.results (i + 1))
      (readBit stream fuel i state)
      (receiveBit i ⟨state.1, state.2.remaining stream length⟩) := by
  rw [receiveBit_eq, readBit]
  refine (measure_follows stream fuel length enough long 0 (2 * i + 2) state.2 (by omega)
    sound).bind ?_
  rintro ⟨first, session⟩ - ⟨rfl, grown, next⟩
  refine (measure_follows stream fuel length enough long 1 (2 * i + 3) session (by omega)
    next).bind ?_
  rintro ⟨second, after⟩ - ⟨rfl, more, last⟩
  have results : after.results = state.2.results ++ [first, second] := by
    rw [more, grown, List.append_assoc]
    rfl
  have result : after.results.getD (2 * i + 3) 0 = second := by
    rw [more, List.getD_append_right _ _ _ _ next.count.le, next.count, Nat.sub_self]
    rfl
  refine .inl ⟨_, _, rfl, rfl, rfl, last, ?_⟩
  rw [spelled, result, results, spelled_append _ _ _ sound.count.ge, ← bytes]

theorem readBits_follows (count : Nat) (session : Session) (bits : count ≤ 40)
    (sound : session.Sound 2) :
    Follows (fun value other => other = ⟨value.1, value.2.remaining stream length⟩ ∧
        value.2.Sound (2 * count + 2) ∧ value.1 = spelled value.2.results count)
      (readBits stream fuel (List.replicate 5 0, session) count)
      (receiveBits ⟨List.replicate 5 0, session.remaining stream length⟩ count) := by
  induction count with
  | zero => exact .inl ⟨_, _, rfl, rfl, rfl, sound, rfl⟩
  | succ count ih =>
      refine (ih (by omega)).bind ?_
      rintro state - ⟨rfl, next, bytes⟩
      exact readBit_follows stream fuel length enough long count state (by omega) next bytes

theorem readFrame_follows :
    Follows (fun value other => other = value.1 ∧ value.2.Sound 82 ∧
        value.1 = spelled value.2.results 40)
      (readFrame stream fuel) (receive (window stream 0 length)) := by
  rw [receive_eq, readFrame]
  refine (measure_follows stream fuel length enough long 0 0 ⟨[], 0⟩ (by omega)
    ⟨rfl, Nat.le_refl _, by simp⟩).bind ?_
  rintro ⟨first, session⟩ - ⟨rfl, -, next⟩
  refine (measure_follows stream fuel length enough long 1 1 session (by omega) next).bind ?_
  rintro ⟨second, after⟩ - ⟨rfl, -, last⟩
  rcases readBits_follows stream fuel length enough long 40 after (Nat.le_refl _) last with
    ⟨value, other, run, list, rfl, sound, bytes⟩ | ⟨stopped, run, list, ends⟩
  · exact .inl ⟨value, value.1, run, by rw [list]; rfl, rfl, sound, bytes⟩
  · exact .inr ⟨stopped, run, by rw [list]; rfl, ends⟩

/-- The fifth byte the results spell is the sum of the other four. -/
def ChecksumMatches (results : List UInt8) : Prop :=
  byteAt (spelled results 40) 4 =
    (byteAt (spelled results 40) 0 + byteAt (spelled results 40) 1 +
      byteAt (spelled results 40) 2 + byteAt (spelled results 40) 3) % 256

/-- A read of the stream ends, and it is the read of any long enough list of samples. -/
theorem dht11ReadStream_ends (dev : Option DHT11Dev) (data : Option DHT11Data) (valFd : Int) :
    ∃ read, dht11ReadStream stream fuel dev data valFd = some read ∧ read.session.Stopped ∧
      dht11Read dev data valFd (window stream 0 length) = (read.ret, read.written.or data) ∧
      (read.written ≠ none → read.session.Sound 82 ∧ ChecksumMatches read.session.results) := by
  have start : Session.Stopped ⟨[], 0⟩ := ⟨Nat.zero_le _, Nat.le_refl _⟩
  rcases dev with _ | dev
  · exact ⟨_, rfl, start, rfl, fun written => absurd rfl written⟩
  rcases data with _ | old
  · exact ⟨_, rfl, start, rfl, fun written => absurd rfl written⟩
  simp only [dht11ReadStream, dht11Read]
  by_cases shut : dev.pi < 0
  · rw [if_pos shut, if_pos shut]
    exact ⟨_, rfl, start, rfl, fun written => absurd rfl written⟩
  rw [if_neg shut, if_neg shut]
  by_cases unopened : valFd < 0
  · rw [if_pos unopened, if_pos unopened]
    exact ⟨_, rfl, start, rfl, fun written => absurd rfl written⟩
  rw [if_neg unopened, if_neg unopened]
  rcases readFrame_follows stream fuel length enough long with
    ⟨⟨_, session⟩, buf, run, list, rfl, sound, bytes⟩ | ⟨session, run, list, stopped⟩
  · have stopped : session.Stopped :=
      ⟨sound.count.le, by rw [sound.count]; exact sound.brief⟩
    simp only [run, list]
    by_cases wrong : byteAt buf 4 ≠
        (byteAt buf 0 + byteAt buf 1 + byteAt buf 2 + byteAt buf 3) % 256
    · rw [if_pos wrong, if_pos wrong]
      exact ⟨_, rfl, stopped, rfl, fun written => absurd rfl written⟩
    · rw [if_neg wrong, if_neg wrong]
      refine ⟨_, rfl, stopped, rfl, fun _ => ⟨sound, ?_⟩⟩
      have same : buf = spelled session.results 40 := bytes
      change ChecksumMatches session.results
      rw [ChecksumMatches, ← same]
      exact not_not.mp wrong
  · simp only [run, list]
    exact ⟨_, rfl, stopped, rfl, fun written => absurd rfl written⟩

end

theorem dht11ReadStream_terminates (stream : Stream) :
    (∀ (level : Int) (position : Nat), ∃ t, ∃ samples ≤ 510,
      (∀ fuel ≥ 510, pollRun stream level fuel position (.awaiting 0) =
        some (t, position + samples)) ∧
      polled stream level position (.awaiting 0) samples = .returned t ∧
      ∀ count counter, polled stream level position (.awaiting 0) count = .awaiting counter ∨
        polled stream level position (.awaiting 0) count = .counting counter →
          (counter + 1).toNat = counter.toNat + 1) ∧
    ∀ (dev : Option DHT11Dev) (data : Option DHT11Data) (valFd : Int), ∀ fuel ≥ 510,
      ∃ read, dht11ReadStream stream fuel dev data valFd = some read ∧
        read.session.results.length ≤ 82 ∧
        read.session.position ≤ 510 * read.session.results.length ∧
        (read.written ≠ none → read.session.results.length = 82 ∧
          (∀ t ∈ read.session.results, t < TIMEOUT_US) ∧
          ChecksumMatches read.session.results) := by
  constructor
  · intro level position
    obtain ⟨t, samples, run, within, ends⟩ :=
      pollRun_returns stream level 510 position (.awaiting 0) (Nat.zero_le _) (Nat.le_refl _)
    refine ⟨t, samples, within, fun fuel enough => ?_, ends, fun count counter here => ?_⟩
    · exact pollRun_more stream level 510 fuel position _ _ run enough
    · have counts := polled_counts stream level count position (.awaiting 0) (Nat.zero_le _)
      rcases here with here | here
      · rw [here] at counts
        exact counter_next counter counts
      · rw [here] at counts
        exact counter_next counter counts
  · intro dev data valFd fuel enough
    obtain ⟨read, run, stopped, -, stored⟩ :=
      dht11ReadStream_ends stream fuel (510 * 82) enough (Nat.le_refl _) dev data valFd
    exact ⟨read, run, stopped.count, stopped.brief, fun written =>
      ⟨(stored written).1.count, (stored written).1.timely, (stored written).2⟩⟩

/-- Two samples low and two high, for ever: forty zeros. -/
theorem dht11ReadStream_square :
    ∃ read, dht11ReadStream (fun n => if n % 4 < 2 then low else high) 510 (some ⟨0, 4⟩)
        (some ⟨21, 40⟩) 3 = some read ∧
      read.session.results.length = 82 ∧ ChecksumMatches read.session.results := by
  obtain ⟨read, run, -, -, stored⟩ :=
    (dht11ReadStream_terminates fun n => if n % 4 < 2 then low else high).2 (some ⟨0, 4⟩)
      (some ⟨21, 40⟩) 3 510 (Nat.le_refl _)
  have wrote : (dht11ReadStream (fun n => if n % 4 < 2 then low else high) 510 (some ⟨0, 4⟩)
      (some ⟨21, 40⟩) 3).map (fun read => read.written.isSome) = some true := by
    decide +kernel
  rw [run] at wrote
  have written : read.written ≠ none :=
    Option.isSome_iff_ne_none.mp (Option.some.inj wrote)
  exact ⟨read, run, (stored written).1, (stored written).2.2⟩

end SensorNode.Dht11Polling
