import SensorNode.BinaryValue
import SensorNode.DerivedHistory

/-!
The denominators of compute_derived_metrics as exact rationals of the stored temperature. The
listener stores finite readings only, and the guard looks at the humidity only. Two of the
denominators are zero for no binary32 value, the third is zero for one of them.
-/

namespace SensorNode.DerivedPoles

open LineStream ReadingStore StepSystem CollectorThreads DerivedHistory BinaryValue

/-! ## Poles -/

section
variable {α : Type} [Add α] [OfScientific α]

-- The same sums in double precision, where the metrics take them, and over the rationals.

def dewPointDenominator (temp : α) : α := 243.04 + temp

def vapourDenominator (temp : α) : α := temp + 243.5

def absHumidityDenominator (temp : α) : α := 273.15 + temp

end

theorem dewPoint_divides (libm : Libm) (temp rh : Float32) :
    dewPoint libm temp rh =
      let gamma := (17.625 * temp.toFloat) / dewPointDenominator temp.toFloat +
        libm.log (rh.toFloat / 100.0)
      (243.04 * gamma / (17.625 - gamma)).toFloat32 := rfl

theorem absHumidity_divides (libm : Libm) (temp rh : Float32) :
    absHumidity libm temp rh =
      ((6.112 * libm.exp (17.67 * temp.toFloat / vapourDenominator temp.toFloat) * rh.toFloat *
        2.1674) / absHumidityDenominator temp.toFloat).toFloat32 := rfl

def denominators (temp : ℚ) : List ℚ :=
  [dewPointDenominator temp, vapourDenominator temp, absHumidityDenominator temp]

/-- No denominator is zero, computed exactly for a finite temperature. -/
def Regular (temp : Float32) : Prop :=
  ∃ number ∈ exactValue temp, ∀ denominator ∈ denominators number, denominator ≠ 0

instance (temp : Float32) : Decidable (Regular temp) :=
  inferInstanceAs (Decidable (∃ number ∈ exactValue temp, _))

def pole : Float32 := -243.5

theorem exactValue_pole : exactValue pole = some (-487 / 2) := by decide +kernel

/-- 243.04 and 273.15 have a factor 5 in their denominators, 243.5 has none. -/
theorem regular_iff (temp : Float32) (finite : temp.isFinite = true) :
    Regular temp ↔ temp ≠ pole := by
  obtain ⟨number, denotes⟩ := Option.isSome_iff_exists.mp ((exactValue_isSome temp).trans finite)
  have dew : number ≠ -6076 / 25 :=
    exactValue_ne temp number _ 5 Nat.prime_five (by decide) (by decide +kernel) denotes
  have air : number ≠ -5463 / 20 :=
    exactValue_ne temp number _ 5 Nat.prime_five (by decide) (by decide +kernel) denotes
  constructor
  · rintro ⟨other, same, nonzero⟩ rfl
    obtain rfl : other = -487 / 2 := Option.some.inj (same.symm.trans exactValue_pole)
    have zero : vapourDenominator (-487 / 2 : ℚ) = 0 := by norm_num [vapourDenominator]
    exact nonzero _ (List.mem_cons_of_mem _ List.mem_cons_self) zero
  · intro off
    have vapour : number ≠ -487 / 2 := by
      rintro rfl
      exact off (exactValue_unique temp pole _ (by norm_num) denotes exactValue_pole)
    refine ⟨number, denotes, ?_⟩
    simp only [denominators, List.forall_mem_cons]
    refine ⟨fun zero => dew ?_, fun zero => vapour ?_, fun zero => air ?_,
      fun _ none => absurd none List.not_mem_nil⟩
    · rw [dewPointDenominator] at zero
      linarith
    · rw [vapourDenominator] at zero
      linarith
    · rw [absHumidityDenominator] at zero
      linarith

/-! ## The temperature of a call -/

/-- What a call finds in the store and in its static variables. -/
def working (state : State) : DerivedCache := refreshCache state.cache state.store

/-- Finite temperatures, wherever a call can take one from. -/
structure FiniteReadings (state : State) : Prop where
  stored : ∀ entry ∈ state.store.data, entry.sensorName.bytes ∉ derivedNames →
    entry.value.isFinite = true
  cached : state.cache.cachedTemp.isFinite = true
  pending : ∀ reading, state.listener = .appending reading → reading.2.isFinite = true

theorem finiteReadings_initial : FiniteReadings initial :=
  ⟨fun _ none => absurd none List.not_mem_nil, by decide, fun _ busy => by cases busy⟩

theorem findSensor_mem (store : DataStore) (name : Bytes) (value : Float32)
    (found : findSensor store name = some value) :
    ∃ entry ∈ store.data, entry.sensorName.bytes = name ∧ entry.value = value := by
  obtain ⟨entry, first, same⟩ := Option.map_eq_some_iff.mp found
  have selected := List.find?_some first
  exact ⟨entry, List.mem_of_find?_eq_some first, beq_iff_eq.mp selected, same⟩

theorem working_finite (state : State) (readings : FiniteReadings state) :
    (working state).cachedTemp.isFinite = true := by
  rw [working, (refreshCache_temp _ _).2]
  cases found : findSensor state.store temperature with
  | none => exact readings.cached
  | some value =>
      obtain ⟨entry, member, name, rfl⟩ := findSensor_mem state.store temperature value found
      exact readings.stored entry member (name ▸ by decide)

theorem append_entry (state : State) (reading : Bytes × Float32) (now : Int64)
    (entry : SensorData) (member : entry ∈ (appendStep state reading now).store.data) :
    entry ∈ state.store.data ∨ entry.value = reading.2 := by
  unfold appendStep at member
  split at member
  · simp only [appendReading, DataStore.push_data] at member
    split at member
    · rcases List.mem_append.mp member with before | new
      · exact .inl before
      · exact .inr (List.mem_singleton.mp new ▸ rfl)
    · exact .inl member
  · exact .inl member

theorem finiteReadings_append (state : State) (readings : FiniteReadings state)
    (reading : Bytes × Float32) (now : Int64) (finite : reading.2.isFinite = true) :
    FiniteReadings (appendStep state reading now) := by
  refine ⟨fun entry member plain => ?_, ?_, ?_⟩
  · rcases append_entry state reading now entry member with before | new
    · exact readings.stored entry before plain
    · exact new ▸ finite
  · rw [appendStep_cache]
    exact readings.cached
  · unfold appendStep
    split <;> exact fun _ busy => by cases busy

theorem derive_entry (libm : Libm) (state : State) (clock : DerivedClock) (entry : SensorData)
    (member : entry ∈ (deriveStep libm state clock).store.data) :
    entry ∈ state.store.data ∨ entry ∈ derivedEntries libm (working state) clock ∧
      state.store.count < (deriveStep libm state clock).store.count := by
  have data : (deriveStep libm state clock).store.data = _ :=
    computed_data libm state.store state.cache clock
  rw [DataStore.count, DataStore.count, data]
  rw [data] at member
  rcases List.mem_append.mp member with before | new
  · exact .inl before
  · have grown := List.length_pos_of_mem new
    split at new
    · refine .inr ⟨List.mem_of_mem_take new, ?_⟩
      rw [List.length_append]
      exact Nat.lt_add_of_pos_right grown
    · exact absurd new List.not_mem_nil

theorem derive_cache (libm : Libm) (state : State) (clock : DerivedClock) :
    (deriveStep libm state clock).cache = working state := computed_cache libm _ _ clock

theorem finiteReadings_derive (libm : Libm) (state : State) (readings : FiniteReadings state)
    (clock : DerivedClock) : FiniteReadings (deriveStep libm state clock) := by
  refine ⟨fun entry member plain => ?_, ?_, readings.pending⟩
  · rcases derive_entry libm state clock entry member with before | ⟨new, -⟩
    · exact readings.stored entry before plain
    · exact absurd (derivedEntries_names libm _ clock entry new) plain
  · rw [derive_cache]
    exact working_finite state readings

theorem finiteReadings_step (libm : Libm) (state : State) (label : Label) (next : State)
    (readings : FiniteReadings state) (moved : step libm state label = some next) :
    FiniteReadings next := by
  cases step_moves libm state label next moved with
  | ignored => exact readings
  | received datagram reading receiving parsed =>
      refine ⟨readings.stored, readings.cached, fun other busy => ?_⟩
      obtain rfl : reading = other := Listener.appending.inj busy
      exact parseDatagram_finite datagram reading parsed
  | append reading now appending =>
      exact finiteReadings_append state readings reading now (readings.pending reading appending)
  | derive clock computing => exact finiteReadings_derive libm state readings clock
  | serialise memory now serialising =>
      unfold serialiseStep
      split <;> exact ⟨readings.stored, readings.cached, readings.pending⟩
  | reset =>
      exact ⟨fun _ none => absurd none List.not_mem_nil, readings.cached, readings.pending⟩
  | _ => exact ⟨readings.stored, readings.cached, readings.pending⟩

/-! ## What enters the store and the payloads -/

def computes : Label → Bool
  | .derive _ => true
  | _ => false

/-- A call that passes its guard does not work from the pole. -/
def OffPole (run : Run) (label : Label) : Prop :=
  computes label = true → derivable (working run.state) = true →
    (working run.state).cachedTemp ≠ pole

instance (run : Run) (label : Label) : Decidable (OffPole run label) :=
  inferInstanceAs (Decidable (_ → _ → _))

/-- A finite value, or what one of the recorded calls computed. -/
def Admitted (libm : Libm) (uses : List Use) (entry : SensorData) : Prop :=
  entry.value.isFinite = true ∨
    ∃ use ∈ uses, ∃ clock, entry ∈ derivedEntries libm ⟨use.temp, use.rh, true, true⟩ clock

theorem admitted_mono (libm : Libm) (before after : List Use) (kept : before ⊆ after)
    (entry : SensorData) (admitted : Admitted libm before entry) : Admitted libm after entry :=
  admitted.imp_right fun ⟨use, member, computed⟩ => ⟨use, kept member, computed⟩

structure Sourced (libm : Libm) (run : Run) : Prop where
  readings : FiniteReadings run.state
  regular : ∀ use ∈ run.uses, Regular use.temp
  store : ∀ entry ∈ run.state.store.data, Admitted libm run.uses entry
  built : ∀ entries ∈ run.built, ∀ entry ∈ entries, Admitted libm run.uses entry

theorem sourced_append (libm : Libm) (run : Run) (sourced : Sourced libm run)
    (reading : Bytes × Float32) (now : Int64)
    (appending : run.state.listener = .appending reading) :
    Sourced libm (record run (.append now) (appendStep run.state reading now)) := by
  have finite := sourced.readings.pending reading appending
  refine ⟨finiteReadings_append run.state sourced.readings reading now finite, sourced.regular,
    fun entry member => ?_, sourced.built⟩
  rcases append_entry run.state reading now entry member with before | new
  · exact sourced.store entry before
  · exact .inl (new ▸ finite)

theorem recorded_use (libm : Libm) (run : Run) (clock : DerivedClock)
    (grown : run.state.store.count < (deriveStep libm run.state clock).store.count) :
    ∃ use, (record run (.derive clock) (deriveStep libm run.state clock)).uses =
        run.uses ++ [use] ∧
      use.temp = (working run.state).cachedTemp ∧ use.rh = (working run.state).cachedRh := by
  refine ⟨_, if_pos grown, ?_, ?_⟩
  · rw [derive_cache]
  · rw [derive_cache]

theorem sourced_derive (libm : Libm) (run : Run) (sourced : Sourced libm run)
    (clock : DerivedClock) (off : OffPole run (.derive clock)) :
    Sourced libm (record run (.derive clock) (deriveStep libm run.state clock)) := by
  have readings := finiteReadings_derive libm run.state sourced.readings clock
  by_cases grown : run.state.store.count < (deriveStep libm run.state clock).store.count
  · have nonzero : Regular (working run.state).cachedTemp :=
      (regular_iff _ (working_finite run.state sourced.readings)).mpr
        (off rfl (derive_ready libm run.state clock grown))
    obtain ⟨use, uses, temp, rh⟩ := recorded_use libm run clock grown
    have last : use ∈ run.uses ++ [use] := List.mem_append_right _ List.mem_cons_self
    have kept : run.uses ⊆ run.uses ++ [use] := List.subset_append_left _ _
    refine ⟨readings, ?_, ?_, ?_⟩
    · rw [uses]
      intro other member
      rcases List.mem_append.mp member with before | new
      · exact sourced.regular other before
      · rw [List.mem_singleton.mp new, temp]
        exact nonzero
    · rw [uses]
      intro entry member
      rcases derive_entry libm run.state clock entry member with before | ⟨new, -⟩
      · exact admitted_mono libm _ _ kept entry (sourced.store entry before)
      · refine .inr ⟨use, last, clock, ?_⟩
        rw [temp, rh]
        exact new
    · rw [uses]
      exact fun entries payload entry member =>
        admitted_mono libm _ _ kept entry (sourced.built entries payload entry member)
  · have uses : (record run (.derive clock) (deriveStep libm run.state clock)).uses = run.uses :=
      if_neg grown
    refine ⟨readings, uses ▸ sourced.regular, ?_, uses ▸ sourced.built⟩
    rw [uses]
    intro entry member
    rcases derive_entry libm run.state clock entry member with before | ⟨-, more⟩
    · exact sourced.store entry before
    · exact absurd more grown

theorem record_state (run : Run) (label : Label) (next : State) :
    (record run label next).state = next := by
  cases label <;> rfl

theorem watch_sourced (libm : Libm) (run : Run) (label : Label) (next : Run)
    (sourced : Sourced libm run) (off : OffPole run label)
    (moved : watch libm run label = some next) : Sourced libm next := by
  obtain ⟨after, went, rfl⟩ := Option.map_eq_some_iff.mp moved
  have readings := finiteReadings_step libm run.state label after sourced.readings went
  cases step_moves libm run.state label after went with
  | append reading now appending => exact sourced_append libm run sourced reading now appending
  | derive clock computing => exact sourced_derive libm run sourced clock off
  | serialise memory now serialising =>
      have store := (serialiseStep_same run.state memory now).1
      refine ⟨readings, sourced.regular, by simpa only [record, store] using sourced.store, ?_⟩
      simp only [record]
      split
      · intro entries payload entry member
        rcases List.mem_append.mp payload with before | new
        · exact sourced.built entries before entry member
        · rw [List.mem_singleton.mp new] at member
          exact sourced.store entry (List.mem_of_mem_take member)
      · exact sourced.built
  | reset =>
      exact ⟨readings, sourced.regular, fun _ none => absurd none List.not_mem_nil, sourced.built⟩
  | _ => exact ⟨readings, sourced.regular, sourced.store, sourced.built⟩

/-- A call that passes its guard divides by zero exactly when it works from the pole. In a run
without such a call, what is in the store or in a payload is finite, or was computed from a
temperature at which no denominator is zero. -/
theorem derived_denominators (libm : Libm) :
    (∀ run, Reachable (watch libm) Starts run → derivable (working run.state) = true →
      (Regular (working run.state).cachedTemp ↔ (working run.state).cachedTemp ≠ pole)) ∧
    ∀ run, ReachableWithin (watch libm) Starts OffPole run →
      (∀ use ∈ run.uses, Regular use.temp) ∧
        ∀ entries ∈ run.state.store.data :: run.built, ∀ entry ∈ entries,
          Admitted libm run.uses entry := by
  have starts : ∀ run, Starts run → Sourced libm run := by
    rintro _ rfl
    exact ⟨finiteReadings_initial, fun _ none => absurd none List.not_mem_nil,
      fun _ none => absurd none List.not_mem_nil, fun _ none => absurd none List.not_mem_nil⟩
  constructor
  · intro run reached _
    have readings : FiniteReadings run.state := by
      refine reachable_invariant (watch libm) Starts (fun run => FiniteReadings run.state) ?_ ?_ run
        reached
      · exact fun first started => (starts first started).readings
      · intro before label next readings moved
        obtain ⟨after, went, rfl⟩ := Option.map_eq_some_iff.mp moved
        rw [record_state]
        exact finiteReadings_step libm before.state label after readings went
    exact regular_iff _ (working_finite run.state readings)
  · intro run reached
    have sourced : Sourced libm run :=
      reachable_within_invariant (watch libm) Starts (Sourced libm) OffPole starts
        (fun before label next => watch_sourced libm before label next) run reached
    refine ⟨sourced.regular, fun entries place => ?_⟩
    rcases List.mem_cons.mp place with rfl | payload
    · exact sourced.store
    · exact sourced.built entries payload

theorem derived_denominators_one_cycle : ∃ run,
    exec (watch ⟨Float.log, Float.exp⟩) ⟨initial, [], [], []⟩
      (quietCycle ++ [.serialise true 0]) = some run ∧
      run.uses.length = 1 ∧ run.built.map List.length = [5] ∧
      Regular (working run.state).cachedTemp ∧
      (∀ use ∈ run.uses, Regular use.temp) ∧
      ∀ entries ∈ run.built, ∀ entry ∈ entries,
        Admitted ⟨Float.log, Float.exp⟩ run.uses entry := by
  have filled : (exec (watch ⟨Float.log, Float.exp⟩) ⟨initial, [], [], []⟩ quietCycle).map
      (fun run => (run.state.sender, run.state.store.data.length, run.uses.length,
        run.built.map List.length, derivable (working run.state),
        decide ((working run.state).cachedTemp = pole))) =
          some (.serialising, 5, 1, [], true, false) := by
    decide +kernel
  obtain ⟨run, ran, value⟩ := Option.map_eq_some_iff.mp filled
  simp only [Prod.mk.injEq] at value
  obtain ⟨ready, stored, used, sent, guarded, off⟩ := value
  have built := exec_serialise _ _ run quietCycle 0 ran ready
  have reached := (derived_denominators ⟨Float.log, Float.exp⟩).1 run ⟨_, _, rfl, ran⟩ guarded
  obtain ⟨regular, admitted⟩ := (derived_denominators ⟨Float.log, Float.exp⟩).2 _
    ⟨_, quietCycle ++ [.serialise true 0], rfl, by decide +kernel, built⟩
  obtain ⟨store, -, -, cache⟩ := serialiseStep_same run.state true 0
  refine ⟨_, built, used, by simp [stored, sent], ?_, regular,
    fun entries member => admitted entries (List.mem_cons_of_mem _ member)⟩
  rw [working, store, cache]
  exact reached.mpr (of_decide_eq_false off)

/-- A temperature of -243.5 passes the listener and the guard. -/
theorem pole_is_admitted :
    ¬ ∀ libm run, Reachable (watch libm) Starts run → derivable (working run.state) = true →
      Regular (working run.state).cachedTemp := by
  intro always
  have stored : (exec (watch ⟨Float.log, Float.exp⟩) ⟨initial, [], [], []⟩
      (sampled ["htu21d_temp:-243.5", "htu21d_rh:50"] ++ [.test])).map (fun run =>
        (derivable (working run.state), decide (Regular (working run.state).cachedTemp))) =
          some (true, false) := by
    decide +kernel
  obtain ⟨run, ran, value⟩ := Option.map_eq_some_iff.mp stored
  obtain ⟨guarded, zero⟩ := Prod.mk.inj value
  exact of_decide_eq_false zero (always _ run ⟨_, _, rfl, ran⟩ guarded)

end SensorNode.DerivedPoles
