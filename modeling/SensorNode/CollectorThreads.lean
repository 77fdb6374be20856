import Mathlib.Data.List.Range
import SensorNode.PayloadText
import SensorNode.StepSystem

/-!
The two threads of data-collector around the reading store. `socket_listener`
and `web_sender` take the store's lock for one critical section at a time, so a
step is one critical section or one step outside the lock. Each appended reading
gets a serial number; the store's cells, the payloads and the history of resets
carry serials along, as ghost data no step reads.
-/

namespace SensorNode.CollectorThreads

open LineStream ReadingStore PayloadText StepSystem

/-- `socket_listener` waits in `recvfrom`, or is about to append a reading. -/
inductive Listener where
  | receiving
  | appending (reading : Bytes × Float32)
  deriving DecidableEq

/-- `web_sender`: each constructor is the next thing it does. -/
inductive Sender where
  | testing
  | computing
  | serialising
  | sending
  | resetting (sent : Bool)
  | draining
  deriving DecidableEq

/-- A text returned by `create_json_payload`, and the serials of the readings
among the entries it holds. -/
structure Payload where
  text : Bytes
  serials : List Nat
  deriving DecidableEq

structure State where
  store : DataStore
  cache : DerivedCache
  listener : Listener
  sender : Sender
  /-- One per entry of the store; none marks a derived value. -/
  tags : List (Option Nat)
  next : Nat
  payloads : List Payload
  erased : List Nat

def initial : State :=
  ⟨.reset, .initial, .receiving, .testing, [], 0, [], []⟩

inductive Label where
  | receive (datagram : Bytes)
  | append (now : Int64)
  | test
  | derive (clock : DerivedClock)
  | serialise (memory : Bool) (now : Int64)
  | send (sent : Bool)
  | reset
  | drain

def serials (tags : List (Option Nat)) : List Nat := tags.filterMap id

def appendStep (state : State) (reading : Bytes × Float32) (now : Int64) : State :=
  if state.store.count < maxSensors then
    { state with
      store := appendReading state.store reading now
      listener := .receiving
      tags := state.tags ++ [some state.next]
      next := state.next + 1 }
  else { state with listener := .receiving }

def deriveStep (libm : Libm) (state : State) (clock : DerivedClock) : State :=
  let derived := computeDerivedMetrics libm state.store state.cache clock
  { state with
    store := derived.1
    cache := derived.2
    sender := .serialising
    tags := state.tags ++ List.replicate (derived.1.count - state.store.count) none }

def serialiseStep (state : State) (memory : Bool) (now : Int64) : State :=
  match createJsonPayload memory state.store now with
  | none => { state with sender := .testing }
  | some text =>
      { state with
        sender := .sending
        payloads := state.payloads ++
          [⟨text, serials (state.tags.take (serialisedCount state.store now))⟩] }

def step (libm : Libm) (state : State) (label : Label) : Option State :=
  match label, state.listener, state.sender with
  -- The listener is free to run whatever the sender is doing, and the other way round.
  | .receive datagram, .receiving, _ =>
      match parseDatagram datagram with
      | none => some state
      | some reading => some { state with listener := .appending reading }
  | .append now, .appending reading, _ => some (appendStep state reading now)
  | .test, _, .testing =>
      some { state with sender := if 0 < state.store.count then .computing else .testing }
  | .derive clock, _, .computing => some (deriveStep libm state clock)
  | .serialise memory now, _, .serialising => some (serialiseStep state memory now)
  | .send sent, _, .sending => some { state with sender := .resetting sent }
  | .reset, _, .resetting sent =>
      -- The whole store goes, with what was appended since it was serialised.
      some { state with
        store := .reset
        sender := if sent then .draining else .testing
        tags := []
        erased := state.erased ++ serials state.tags }
  | .drain, _, .draining => some { state with sender := .testing }
  | _, _, _ => none

inductive Moves (libm : Libm) (state : State) : Label → State → Prop where
  | ignored (datagram : Bytes) (receiving : state.listener = .receiving)
      (none : parseDatagram datagram = none) : Moves libm state (.receive datagram) state
  | received (datagram : Bytes) (reading : Bytes × Float32)
      (receiving : state.listener = .receiving) (parsed : parseDatagram datagram = some reading) :
      Moves libm state (.receive datagram) { state with listener := .appending reading }
  | append (reading : Bytes × Float32) (now : Int64)
      (appending : state.listener = .appending reading) :
      Moves libm state (.append now) (appendStep state reading now)
  | test (testing : state.sender = .testing) :
      Moves libm state .test
        { state with sender := if 0 < state.store.count then .computing else .testing }
  | derive (clock : DerivedClock) (computing : state.sender = .computing) :
      Moves libm state (.derive clock) (deriveStep libm state clock)
  | serialise (memory : Bool) (now : Int64) (serialising : state.sender = .serialising) :
      Moves libm state (.serialise memory now) (serialiseStep state memory now)
  | send (sent : Bool) (sending : state.sender = .sending) :
      Moves libm state (.send sent) { state with sender := .resetting sent }
  | reset (sent : Bool) (resetting : state.sender = .resetting sent) :
      Moves libm state .reset
        { state with
          store := .reset
          sender := if sent then .draining else .testing
          tags := []
          erased := state.erased ++ serials state.tags }
  | drain (draining : state.sender = .draining) :
      Moves libm state .drain { state with sender := .testing }

theorem step_moves (libm : Libm) (state : State) (label : Label) (next : State)
    (moved : step libm state label = some next) : Moves libm state label next := by
  unfold step at moved
  split at moved
  · next receiving =>
    split at moved
    · next none => exact Option.some.inj moved ▸ .ignored _ receiving none
    · next parsed => exact Option.some.inj moved ▸ .received _ _ receiving parsed
  · next appending => exact Option.some.inj moved ▸ .append _ _ appending
  · next testing => exact Option.some.inj moved ▸ .test testing
  · next computing => exact Option.some.inj moved ▸ .derive _ computing
  · next serialising => exact Option.some.inj moved ▸ .serialise _ _ serialising
  · next sending => exact Option.some.inj moved ▸ .send _ sending
  · next resetting => exact Option.some.inj moved ▸ .reset _ resetting
  · next draining => exact Option.some.inj moved ▸ .drain draining
  · cases moved

/-- Every reading erased from the store is in exactly one payload. -/
def Accounted (state : State) : Prop :=
  ∀ serial ∈ state.erased, (state.payloads.flatMap Payload.serials).count serial = 1

/-- Between serialising the store and resetting it. -/
def Sender.holdsPayload : Sender → Bool
  | .sending | .resetting _ => true
  | _ => false

/-- No reading is appended between the serialisation and the reset. -/
def NoAppendInFlight (state : State) (label : Label) : Prop :=
  match label with
  | .append _ => state.sender.holdsPayload = true → maxSensors ≤ state.store.count
  | _ => True

instance (state : State) (label : Label) : Decidable (NoAppendInFlight state label) := by
  unfold NoAppendInFlight
  split <;> infer_instance

/-! ## The invariant -/

/-- Readings are serialised and erased in the order they were appended. -/
structure Ordered (state : State) : Prop where
  cells : state.tags.length = state.store.count
  appended : state.erased ++ serials state.tags = List.range state.next
  idle : state.sender.holdsPayload = false →
    state.payloads.flatMap Payload.serials = state.erased
  holding : state.sender.holdsPayload = true →
    state.payloads.flatMap Payload.serials = state.erased ++ serials state.tags

theorem ordered_initial : Ordered initial :=
  ⟨rfl, rfl, fun _ => rfl, nofun⟩

theorem serials_append (left right : List (Option Nat)) :
    serials (left ++ right) = serials left ++ serials right := List.filterMap_append

theorem serials_derived (count : Nat) : serials (List.replicate count none) = [] := by
  simp [serials]

theorem ordered_append (state : State) (reading : Bytes × Float32) (now : Int64)
    (ordered : Ordered state)
    (guarded : state.sender.holdsPayload = true → maxSensors ≤ state.store.count) :
    Ordered (appendStep state reading now) := by
  unfold appendStep
  split
  · next room =>
    -- There is room in the store, so the guard excludes a payload on the way.
    have idle : state.sender.holdsPayload = false := by
      cases holds : state.sender.holdsPayload with
      | false => rfl
      | true => exact absurd (guarded holds) (not_le.mpr room)
    have grown : (appendReading state.store reading now).count = state.store.count + 1 := by
      rw [DataStore.count, appendReading, DataStore.push_data,
        if_pos (show state.store.data.length < maxSensors from room), List.length_append]
      rfl
    refine ⟨?_, ?_, fun _ => ordered.idle idle, fun holds => ?_⟩
    · rw [List.length_append, ordered.cells, grown, List.length_singleton]
    · rw [serials_append, ← List.append_assoc, ordered.appended, List.range_succ]
      rfl
    · rw [idle] at holds
      cases holds
  · exact ⟨ordered.cells, ordered.appended, ordered.idle, ordered.holding⟩

theorem ordered_derive (libm : Libm) (state : State) (clock : DerivedClock)
    (ordered : Ordered state) (computing : state.sender = .computing) :
    Ordered (deriveStep libm state clock) := by
  have grown : state.store.count ≤
      (computeDerivedMetrics libm state.store state.cache clock).1.count :=
    (computeDerivedMetrics_extends libm state.store state.cache clock).length_le
  have idle := ordered.idle (by rw [computing]; rfl)
  refine ⟨?_, ?_, fun _ => idle, nofun⟩
  · simp only [deriveStep, List.length_append, List.length_replicate, ordered.cells]
    omega
  · simp only [deriveStep, serials_append, serials_derived, List.append_nil]
    exact ordered.appended

theorem ordered_serialise (state : State) (memory : Bool) (now : Int64)
    (ordered : Ordered state) (serialising : state.sender = .serialising) :
    Ordered (serialiseStep state memory now) := by
  have idle := ordered.idle (by rw [serialising]; rfl)
  unfold serialiseStep
  cases createJsonPayload memory state.store now with
  | none => exact ⟨ordered.cells, ordered.appended, fun _ => idle, nofun⟩
  | some text =>
      refine ⟨ordered.cells, ordered.appended, nofun, fun _ => ?_⟩
      have whole : state.tags.take (serialisedCount state.store now) = state.tags := by
        rw [serialisedCount_complete, ← ordered.cells, List.take_length]
      simp only [List.flatMap_append, idle, whole]
      simp

theorem ordered_step (libm : Libm) (state : State) (label : Label) (next : State)
    (ordered : Ordered state) (guarded : NoAppendInFlight state label)
    (moved : step libm state label = some next) : Ordered next := by
  cases step_moves libm state label next moved with
  | ignored => exact ordered
  | received => exact ⟨ordered.cells, ordered.appended, ordered.idle, ordered.holding⟩
  | append reading now => exact ordered_append state reading now ordered guarded
  | test testing =>
      have idle := ordered.idle (by rw [testing]; rfl)
      refine ⟨ordered.cells, ordered.appended, fun _ => idle, fun holds => ?_⟩
      simp only at holds
      split at holds <;> cases holds
  | derive clock computing => exact ordered_derive libm state clock ordered computing
  | serialise memory now serialising => exact ordered_serialise state memory now ordered serialising
  | send sent sending =>
      have holding := ordered.holding (by rw [sending]; rfl)
      exact ⟨ordered.cells, ordered.appended, nofun, fun _ => holding⟩
  | reset sent resetting =>
      have holding := ordered.holding (by rw [resetting]; rfl)
      refine ⟨rfl, ?_, fun _ => holding, fun holds => ?_⟩
      · exact (List.append_nil _).trans ordered.appended
      · simp only at holds
        split at holds <;> cases holds
  | drain draining =>
      have idle := ordered.idle (by rw [draining]; rfl)
      exact ⟨ordered.cells, ordered.appended, fun _ => idle, nofun⟩

theorem ordered_accounted (state : State) (ordered : Ordered state) : Accounted state := by
  intro serial erased
  -- Serials are given out in order, so no reading is counted twice.
  have once : (state.erased ++ serials state.tags).Nodup := by
    rw [ordered.appended]
    exact List.nodup_range
  cases holds : state.sender.holdsPayload with
  | false =>
      rw [ordered.idle holds]
      exact List.count_eq_one_of_mem (List.nodup_append.mp once).1 erased
  | true =>
      rw [ordered.holding holds]
      exact List.count_eq_one_of_mem once (List.mem_append_left _ erased)

/-- In a run that never appends a reading between a serialisation and the reset
that follows it, no reading is lost. -/
theorem readings_accounted (libm : Libm) (state : State)
    (reached : ReachableWithin (step libm) (· = initial) NoAppendInFlight state) :
    Accounted state := by
  apply ordered_accounted
  exact reachable_within_invariant (step libm) (· = initial) Ordered NoAppendInFlight
    (fun _ same => same ▸ ordered_initial)
    (fun state label next => ordered_step libm state label next) state reached

theorem readings_accounted_one_cycle :
    ∃ state, exec (step ⟨Float.log, Float.exp⟩) initial
        [.receive (ascii "a:1"), .append 0, .test, .derive ⟨0, 0, 0⟩, .serialise true 0,
          .send true, .reset] = some state ∧ state.erased = [0] ∧ Accounted state := by
  have erased : (exec (step ⟨Float.log, Float.exp⟩) initial
      [.receive (ascii "a:1"), .append 0, .test, .derive ⟨0, 0, 0⟩, .serialise true 0,
        .send true, .reset]).map State.erased = some [0] := by decide +kernel
  obtain ⟨state, ran, history⟩ := Option.map_eq_some_iff.mp erased
  exact ⟨state, ran, history, readings_accounted _ state
    ⟨initial, _, rfl, by decide +kernel, ran⟩⟩

/-- A reading appended while its predecessor's payload is on the way. -/
def lossLabels : List Label :=
  [.receive (ascii "a:1"), .append 0, .test, .derive ⟨0, 0, 0⟩, .serialise true 0,
    .receive (ascii "b:2"), .append 0, .send true, .reset]

theorem appended_during_send_is_lost :
    ¬ ∀ libm state, Reachable (step libm) (· = initial) state → Accounted state := by
  intro accounted
  have lost : (exec (step ⟨Float.log, Float.exp⟩) initial lossLabels).map (fun state =>
      (state.erased, state.payloads.flatMap Payload.serials)) = some ([0, 1], [0]) := by
    decide +kernel
  obtain ⟨state, ran, history⟩ := Option.map_eq_some_iff.mp lost
  obtain ⟨erased, held⟩ := Prod.mk.inj history
  have once := accounted _ state ⟨initial, lossLabels, rfl, ran⟩ 1 (by simp [erased])
  rw [held] at once
  cases once

end SensorNode.CollectorThreads
