import SensorNode.CollectorThreads

/-!
What compute_derived_metrics works from and what it leaves in the payloads, over whole
runs of the two threads. A run is recorded: the readings that were in the store at each
call, the values each appending call used, and the entries of each payload. The lookup
takes the first entry of a name, and the three appends fill up the store one by one.
-/

namespace SensorNode.DerivedHistory

open LineStream ReadingStore PayloadText StepSystem CollectorThreads

/-! ## Recorded runs -/

/-- A reading of the listener with its serial. -/
abbrev Reading := Nat × SensorData

/-- What a call that appends computes from, and the readings seen by then. -/
structure Use where
  temp : Float32
  rh : Float32
  seen : List Reading

structure Run where
  state : State
  seen : List Reading
  uses : List Use
  built : List (List SensorData)

def temperature : Bytes := ascii "htu21d_temp"

def humidity : Bytes := ascii "htu21d_rh"

def derivedNames : List Bytes := [ascii "dew_point", ascii "heat_index", ascii "abs_humidity"]

def named (name : Bytes) (entry : SensorData) : Bool := entry.sensorName.bytes == name

def cells (state : State) : List (Option Nat × SensorData) := state.tags.zip state.store.data

def readings (cells : List (Option Nat × SensorData)) : List Reading :=
  cells.filterMap fun cell => cell.1.map fun serial => (serial, cell.2)

/-- What a step adds to the record; `uses` grows with the store. -/
def record (run : Run) (label : Label) (next : State) : Run :=
  match label with
  | .derive _ =>
      let seen := run.seen ++ readings (cells run.state)
      { run with
        state := next
        seen := seen
        uses := if run.state.store.count < next.store.count then
          run.uses ++ [⟨next.cache.cachedTemp, next.cache.cachedRh, seen⟩] else run.uses }
  | .serialise memory now =>
      { run with
        state := next
        built := if (createJsonPayload memory run.state.store now).isSome then
          run.built ++ [run.state.store.data.take (serialisedCount run.state.store now)]
          else run.built }
  | _ => { run with state := next }

def watch (libm : Libm) (run : Run) (label : Label) : Option Run :=
  (step libm run.state label).map (record run label)

def Starts (run : Run) : Prop := run = ⟨initial, [], [], []⟩

/-! ## What a call appends -/

theorem pushes_data (entries : List SensorData) (store : DataStore) :
    (entries.foldl DataStore.push store).data =
      store.data ++ entries.take (maxSensors - store.data.length) := by
  induction entries generalizing store with
  | nil => simp
  | cons entry rest ih =>
      rw [List.foldl_cons, ih, DataStore.push_data]
      by_cases room : store.data.length < maxSensors
      · obtain ⟨left, size⟩ : ∃ left, maxSensors - store.data.length = left + 1 :=
          ⟨maxSensors - store.data.length - 1, by omega⟩
        have fewer : maxSensors - (store.data.length + 1) = left := by omega
        rw [if_pos room, List.length_append, List.length_singleton, fewer, size,
          List.take_succ_cons, List.append_assoc]
        rfl
      · have none : maxSensors - store.data.length = 0 := by omega
        rw [if_neg room, none, List.take_zero, List.take_zero]

def derivedEntries (libm : Libm) (cache : DerivedCache) (clock : DerivedClock) :
    List SensorData :=
  [⟨SensorName.copy (ascii "dew_point"), dewPoint libm cache.cachedTemp cache.cachedRh,
      clock.dewPoint⟩,
    ⟨SensorName.copy (ascii "heat_index"), heatIndex cache.cachedTemp cache.cachedRh,
      clock.heatIndex⟩,
    ⟨SensorName.copy (ascii "abs_humidity"), absHumidity libm cache.cachedTemp cache.cachedRh,
      clock.absHumidity⟩]

section
variable (libm : Libm) (store : DataStore) (cache : DerivedCache) (clock : DerivedClock)

theorem computed_cache :
    (computeDerivedMetrics libm store cache clock).2 = refreshCache cache store := by
  unfold computeDerivedMetrics
  simp only
  split <;> rfl

/-- As many of the three as there is room for, or none of them. -/
theorem computed_data :
    (computeDerivedMetrics libm store cache clock).1.data = store.data ++
      if derivable (refreshCache cache store) then
        (derivedEntries libm (refreshCache cache store) clock).take
          (maxSensors - store.data.length)
      else [] := by
  unfold computeDerivedMetrics
  simp only
  split
  · exact pushes_data (derivedEntries libm (refreshCache cache store) clock) store
  · exact (List.append_nil _).symm

theorem derivedEntries_bytes :
    (derivedEntries libm cache clock).map (fun entry => entry.sensorName.bytes) = derivedNames := by
  have dew : (SensorName.copy (ascii "dew_point")).bytes = ascii "dew_point" := by decide
  have heat : (SensorName.copy (ascii "heat_index")).bytes = ascii "heat_index" := by decide
  have vapour : (SensorName.copy (ascii "abs_humidity")).bytes = ascii "abs_humidity" := by decide
  simp only [derivedEntries, derivedNames, List.map_cons, List.map_nil, dew, heat, vapour]

theorem derivedEntries_names (entry : SensorData)
    (member : entry ∈ derivedEntries libm cache clock) :
    entry.sensorName.bytes ∈ derivedNames := by
  rw [← derivedEntries_bytes libm cache clock]
  exact List.mem_map_of_mem member

end

/-! ## The latest reading -/

/-- The value of the reading of that name accepted last. -/
def Latest (name : Bytes) (seen : List Reading) (value : Float32) : Prop :=
  ∃ reading ∈ seen, named name reading.2 = true ∧ reading.2.value = value ∧
    ∀ other ∈ seen, named name other.2 = true → other.1 ≤ reading.1

instance (name : Bytes) (seen : List Reading) (value : Float32) :
    Decidable (Latest name seen value) :=
  inferInstanceAs (Decidable (∃ reading ∈ seen, _ ∧ _))

def Use.FromLatest (use : Use) : Prop :=
  Latest temperature use.seen use.temp ∧ Latest humidity use.seen use.rh

instance (use : Use) : Decidable use.FromLatest :=
  inferInstanceAs (Decidable (_ ∧ _))

def lastSensor (store : DataStore) (name : Bytes) : Option Float32 :=
  (store.data.reverse.find? (named name)).map fun entry => entry.value

/-- The first and the last entry of each of the two names have one value. -/
def Unambiguous (run : Run) : Label → Prop
  | .derive _ => findSensor run.state.store temperature = lastSensor run.state.store temperature ∧
      findSensor run.state.store humidity = lastSensor run.state.store humidity
  | _ => True

instance (run : Run) (label : Label) : Decidable (Unambiguous run label) := by
  unfold Unambiguous
  split <;> infer_instance

/-- Tags and entries go together, and the readings are in the order of their serials. -/
structure Tidy (state : State) : Prop where
  tagged : state.tags.length = state.store.data.length
  derived : ∀ cell ∈ cells state, cell.1 = none → cell.2.sensorName.bytes ∈ derivedNames
  order : (readings (cells state)).Pairwise fun first second => first.1 < second.1
  fresh : ∀ reading ∈ readings (cells state), reading.1 < state.next

theorem tidy_initial : Tidy initial := ⟨rfl, nofun, List.Pairwise.nil, nofun⟩

theorem readings_append (front back : List (Option Nat × SensorData)) :
    readings (front ++ back) = readings front ++ readings back := List.filterMap_append

theorem mem_readings (cells : List (Option Nat × SensorData)) (reading : Reading) :
    reading ∈ readings cells ↔ (some reading.1, reading.2) ∈ cells := by
  simp only [readings, List.mem_filterMap, Option.map_eq_some_iff, Prod.exists]
  constructor
  · rintro ⟨tag, entry, member, serial, rfl, rfl⟩
    exact member
  · exact fun member => ⟨_, _, member, _, rfl, rfl⟩

theorem untagged (entries : List SensorData) (cell : Option Nat × SensorData)
    (member : cell ∈ (List.replicate entries.length none).zip entries) :
    cell.1 = none ∧ cell.2 ∈ entries := by
  obtain ⟨tag, entry⟩ := cell
  obtain ⟨none, inside⟩ := List.of_mem_zip member
  exact ⟨List.eq_of_mem_replicate none, inside⟩

theorem readings_derived (entries : List SensorData) :
    readings ((List.replicate entries.length none).zip entries) = [] := by
  rw [readings, List.filterMap_eq_nil_iff]
  intro cell member
  rw [(untagged entries cell member).1]
  rfl

section
variable {state : State} (tidy : Tidy state)
include tidy

theorem tidy_append (reading : Bytes × Float32) (now : Int64) :
    Tidy (appendStep state reading now) ∧ ∃ new,
      readings (cells (appendStep state reading now)) = readings (cells state) ++ new ∧
      (∀ added ∈ new, added.1 = state.next) ∧
      state.next ≤ (appendStep state reading now).next := by
  unfold appendStep
  split
  · next room =>
    have data : (appendReading state.store reading now).data =
        state.store.data ++ [⟨SensorName.copy reading.1, reading.2, now⟩] := by
      rw [appendReading, DataStore.push_data]
      exact if_pos room
    -- The new cell carries the serial of its reading.
    have grown : cells { state with
        store := appendReading state.store reading now
        listener := .receiving
        tags := state.tags ++ [some state.next]
        next := state.next + 1 } =
        cells state ++ [(some state.next, ⟨SensorName.copy reading.1, reading.2, now⟩)] := by
      simp only [cells, data, List.zip_append tidy.tagged]
      rfl
    have added : readings [(some state.next, (⟨SensorName.copy reading.1, reading.2, now⟩ :
        SensorData))] = [(state.next, ⟨SensorName.copy reading.1, reading.2, now⟩)] := rfl
    constructor
    · refine ⟨by simp [data, tidy.tagged], ?_, ?_, ?_⟩
      · rw [grown]
        intro cell member absent
        rcases List.mem_append.mp member with before | new
        · exact tidy.derived cell before absent
        · rw [List.mem_singleton.mp new] at absent
          cases absent
      · rw [grown, readings_append, added, List.pairwise_append]
        refine ⟨tidy.order, List.pairwise_singleton _ _, fun old member other new => ?_⟩
        rw [List.mem_singleton.mp new]
        exact tidy.fresh old member
      · rw [grown, readings_append, added]
        intro other member
        rcases List.mem_append.mp member with before | new
        · exact Nat.lt_succ_of_lt (tidy.fresh other before)
        · rw [List.mem_singleton.mp new]
          exact Nat.lt_succ_self state.next
    · refine ⟨_, by rw [grown, readings_append, added], ?_, Nat.le_succ state.next⟩
      intro reading member
      rw [List.mem_singleton.mp member]
  · exact ⟨⟨tidy.tagged, tidy.derived, tidy.order, tidy.fresh⟩, [], (List.append_nil _).symm,
      fun _ none => absurd none List.not_mem_nil, Nat.le_refl _⟩

theorem derive_cells (libm : Libm) (clock : DerivedClock) : ∃ added : List SensorData,
    (∀ entry ∈ added, entry.sensorName.bytes ∈ derivedNames) ∧
    (deriveStep libm state clock).store.data = state.store.data ++ added ∧
    (deriveStep libm state clock).tags = state.tags ++ List.replicate added.length none ∧
    cells (deriveStep libm state clock) =
      cells state ++ (List.replicate added.length none).zip added := by
  have data := computed_data libm state.store state.cache clock
  obtain ⟨added, appended⟩ : ∃ added, added =
      if derivable (refreshCache state.cache state.store) then
        (derivedEntries libm (refreshCache state.cache state.store) clock).take
          (maxSensors - state.store.data.length)
      else [] := ⟨_, rfl⟩
  rw [← appended] at data
  have names : ∀ entry ∈ added, entry.sensorName.bytes ∈ derivedNames := by
    intro entry member
    rw [appended] at member
    split at member
    · exact derivedEntries_names libm _ clock entry (List.mem_of_mem_take member)
    · cases member
  have tags : (deriveStep libm state clock).tags =
      state.tags ++ List.replicate added.length none := by
    simp [deriveStep, DataStore.count, data]
  refine ⟨added, names, data, tags, ?_⟩
  rw [cells, tags]
  change (state.tags ++ _).zip (computeDerivedMetrics libm state.store state.cache clock).1.data = _
  rw [data, List.zip_append tidy.tagged]
  rfl

theorem tidy_derive (libm : Libm) (clock : DerivedClock) :
    Tidy (deriveStep libm state clock) ∧
      readings (cells (deriveStep libm state clock)) = readings (cells state) := by
  obtain ⟨added, names, data, tags, grown⟩ := derive_cells tidy libm clock
  have same : readings (cells (deriveStep libm state clock)) = readings (cells state) := by
    rw [grown, readings_append, readings_derived, List.append_nil]
  refine ⟨⟨?_, ?_, by rw [same]; exact tidy.order, by rw [same]; exact tidy.fresh⟩, same⟩
  · rw [tags, data, List.length_append, List.length_append, List.length_replicate, tidy.tagged]
  · rw [grown]
    intro cell member absent
    rcases List.mem_append.mp member with before | new
    · exact tidy.derived cell before absent
    · exact names cell.2 (untagged added cell new).2

/-- A reading of the listener's with this entry, newest of its name in the store. -/
theorem last_reading (name : Bytes) (plain : name ∉ derivedNames) (value : Float32)
    (last : lastSensor state.store name = some value) :
    Latest name (readings (cells state)) value := by
  obtain ⟨entry, found, rfl⟩ := Option.map_eq_some_iff.mp last
  obtain ⟨match_, later, earlier, split, others⟩ := List.find?_eq_some_iff_append.mp found
  have data : state.store.data = earlier.reverse ++ entry :: later.reverse := by
    have flipped := congrArg List.reverse split
    simpa using flipped
  have second : (cells state).map Prod.snd = earlier.reverse ++ entry :: later.reverse := by
    rw [cells, List.map_snd_zip tidy.tagged.ge, data]
  obtain ⟨front, rest, parts, -, tail⟩ := List.map_eq_append_iff.mp second
  obtain ⟨⟨tag, other⟩, back, rfl, rfl, after⟩ := List.map_eq_cons_iff.mp tail
  have inside : (tag, other) ∈ cells state := by
    rw [parts]
    exact List.mem_append_right _ List.mem_cons_self
  cases tag with
  | none =>
      -- An entry without a serial is a derived one, and no derived metric has this name.
      have same : other.sensorName.bytes = name := beq_iff_eq.mp match_
      exact absurd (same ▸ tidy.derived _ inside rfl) plain
  | some serial =>
      refine ⟨(serial, other), (mem_readings _ _).mpr inside, match_, rfl, ?_⟩
      have order := tidy.order
      have here : readings ((some serial, other) :: back) = (serial, other) :: readings back := rfl
      rw [parts, readings_append, here] at order ⊢
      obtain ⟨-, -, across⟩ := List.pairwise_append.mp order
      intro reading member isNamed
      rcases List.mem_append.mp member with before | behind
      · exact (across reading before _ List.mem_cons_self).le
      · rcases List.mem_cons.mp behind with same | beyond
        · exact (congrArg Prod.fst same).le
        · -- what stands behind the last of the name has another name
          have entries : reading.2 ∈ later.reverse := by
            rw [← after]
            exact List.mem_map_of_mem ((mem_readings back reading).mp beyond)
          have different := others reading.2 (List.mem_reverse.mp entries)
          simp [isNamed] at different

end

/-! ## The cache is the latest reading -/

/-- What was seen is in the store still, or older than all that is. -/
def Aged (state : State) (seen : List Reading) : Prop :=
  ∀ reading ∈ seen, reading.1 < state.next ∧
    (reading ∈ readings (cells state) ∨ ∀ other ∈ readings (cells state), reading.1 < other.1)

theorem findSensor_none (store : DataStore) (name : Bytes) (missing : findSensor store name = none)
    (entry : SensorData) (member : entry ∈ store.data) : named name entry = false := by
  have absent := List.find?_eq_none.mp (Option.map_eq_none_iff.mp missing) entry member
  simpa [named] using absent

section
variable {state : State} (tidy : Tidy state) (seen : List Reading) (aged : Aged state seen)
  (name : Bytes)

include tidy aged in
theorem latest_found (plain : name ∉ derivedNames) (value : Float32)
    (last : lastSensor state.store name = some value) :
    Latest name (seen ++ readings (cells state)) value := by
  obtain ⟨reading, member, isNamed, same, newest⟩ := last_reading tidy name plain value last
  refine ⟨reading, List.mem_append_right _ member, isNamed, same, fun other inside otherNamed => ?_⟩
  rcases List.mem_append.mp inside with before | here
  · rcases (aged other before).2 with kept | older
    · exact newest other kept otherNamed
    · exact (older reading member).le
  · exact newest other here otherNamed

theorem latest_kept (value : Float32) (missing : findSensor state.store name = none)
    (latest : Latest name seen value) : Latest name (seen ++ readings (cells state)) value := by
  obtain ⟨reading, member, isNamed, same, newest⟩ := latest
  refine ⟨reading, List.mem_append_left _ member, isNamed, same, fun other inside otherNamed => ?_⟩
  rcases List.mem_append.mp inside with before | here
  · exact newest other before otherNamed
  · have stored : other.2 ∈ state.store.data :=
      (List.of_mem_zip ((mem_readings _ other).mp here)).2
    have different := findSensor_none state.store name missing other.2 stored
    rw [otherNamed] at different
    cases different

end

theorem refreshCache_temp (cache : DerivedCache) (store : DataStore) :
    (refreshCache cache store).haveTemp =
        ((findSensor store temperature).isSome || cache.haveTemp) ∧
      (refreshCache cache store).cachedTemp =
        (findSensor store temperature).getD cache.cachedTemp := by
  unfold refreshCache temperature
  cases findSensor store (ascii "htu21d_temp") <;> cases findSensor store (ascii "htu21d_rh") <;>
    exact ⟨rfl, rfl⟩

theorem refreshCache_rh (cache : DerivedCache) (store : DataStore) :
    (refreshCache cache store).haveRh =
        ((findSensor store humidity).isSome || cache.haveRh) ∧
      (refreshCache cache store).cachedRh =
        (findSensor store humidity).getD cache.cachedRh := by
  unfold refreshCache humidity
  cases findSensor store (ascii "htu21d_temp") <;> cases findSensor store (ascii "htu21d_rh") <;>
    exact ⟨rfl, rfl⟩

theorem derive_ready (libm : Libm) (state : State) (clock : DerivedClock)
    (grown : state.store.count < (deriveStep libm state clock).store.count) :
    derivable (refreshCache state.cache state.store) = true := by
  by_contra blocked
  have data := computed_data libm state.store state.cache clock
  rw [if_neg blocked, List.append_nil] at data
  have still : (deriveStep libm state clock).store.count = state.store.count :=
    congrArg List.length data
  omega

/-- The cache holds the latest readings seen. -/
structure Current (run : Run) : Prop where
  tidy : Tidy run.state
  aged : Aged run.state run.seen
  temp : run.state.cache.haveTemp = true → Latest temperature run.seen run.state.cache.cachedTemp
  rh : run.state.cache.haveRh = true → Latest humidity run.seen run.state.cache.cachedRh
  uses : ∀ use ∈ run.uses, use.FromLatest

theorem latest_refreshed {state : State} (tidy : Tidy state) (seen : List Reading)
    (aged : Aged state seen) (name : Bytes) (plain : name ∉ derivedNames) (cached : Float32)
    (known : Bool) (held : known = true → Latest name seen cached)
    (same : findSensor state.store name = lastSensor state.store name)
    (have_ : ((findSensor state.store name).isSome || known) = true) :
    Latest name (seen ++ readings (cells state)) ((findSensor state.store name).getD cached) := by
  cases found : findSensor state.store name with
  | some value => exact latest_found tidy seen aged name plain value (same ▸ found)
  | none =>
      rw [found] at have_
      exact latest_kept seen name cached found (held have_)

theorem current_derive (libm : Libm) (run : Run) (clock : DerivedClock) (current : Current run)
    (unambiguous : Unambiguous run (.derive clock)) :
    Current (record run (.derive clock) (deriveStep libm run.state clock)) := by
  obtain ⟨tidy, same⟩ := tidy_derive current.tidy libm clock
  have cache : (deriveStep libm run.state clock).cache =
      refreshCache run.state.cache run.state.store := computed_cache libm _ _ clock
  have temp : (refreshCache run.state.cache run.state.store).haveTemp = true →
      Latest temperature (run.seen ++ readings (cells run.state))
        (refreshCache run.state.cache run.state.store).cachedTemp := by
    rw [(refreshCache_temp _ _).1, (refreshCache_temp _ _).2]
    exact latest_refreshed current.tidy run.seen current.aged temperature (by decide) _ _
      current.temp unambiguous.1
  have rh : (refreshCache run.state.cache run.state.store).haveRh = true →
      Latest humidity (run.seen ++ readings (cells run.state))
        (refreshCache run.state.cache run.state.store).cachedRh := by
    rw [(refreshCache_rh _ _).1, (refreshCache_rh _ _).2]
    exact latest_refreshed current.tidy run.seen current.aged humidity (by decide) _ _
      current.rh unambiguous.2
  refine ⟨tidy, ?_, by simpa only [record, cache] using temp,
    by simpa only [record, cache] using rh, ?_⟩
  · intro reading member
    simp only [record, same] at member ⊢
    rcases List.mem_append.mp member with before | here
    · exact current.aged reading before
    · exact ⟨current.tidy.fresh reading here, .inl here⟩
  · simp only [record]
    split
    · next grown =>
      -- Entries were added, so both readings were known.
      have ready := derive_ready libm run.state clock grown
      simp only [derivable, Bool.and_eq_true] at ready
      intro use member
      rcases List.mem_append.mp member with before | new
      · exact current.uses use before
      · rw [List.mem_singleton.mp new, cache]
        exact ⟨temp ready.1.1.1, rh ready.1.1.2⟩
    · exact current.uses

theorem aged_append {state : State} (tidy : Tidy state) (seen : List Reading)
    (aged : Aged state seen) (reading : Bytes × Float32) (now : Int64) :
    Aged (appendStep state reading now) seen := by
  obtain ⟨-, new, grown, fresh, later⟩ := tidy_append tidy reading now
  intro old member
  obtain ⟨before, place⟩ := aged old member
  refine ⟨before.trans_le later, ?_⟩
  rw [grown]
  rcases place with kept | older
  · exact .inl (List.mem_append_left _ kept)
  · refine .inr fun other inside => ?_
    rcases List.mem_append.mp inside with was | added
    · exact older other was
    · exact (fresh other added).symm ▸ before

theorem current_same (run : Run) (next : State) (built : List (List SensorData))
    (current : Current run) (store : next.store = run.state.store)
    (tags : next.tags = run.state.tags) (serial : next.next = run.state.next)
    (cache : next.cache = run.state.cache) :
    Current { run with state := next, built := built } := by
  obtain ⟨⟨tagged, derived, order, fresh⟩, aged, temp, rh, uses⟩ := current
  have same : cells next = cells run.state := by rw [cells, cells, store, tags]
  refine ⟨⟨?_, ?_, ?_, ?_⟩, ?_, ?_, ?_, uses⟩
  · rw [tags, store]
    exact tagged
  · rw [same]
    exact derived
  · rw [same]
    exact order
  · rw [same, serial]
    exact fresh
  · rw [Aged, same, serial]
    exact aged
  · rw [cache]
    exact temp
  · rw [cache]
    exact rh

theorem serialiseStep_same (state : State) (memory : Bool) (now : Int64) :
    (serialiseStep state memory now).store = state.store ∧
      (serialiseStep state memory now).tags = state.tags ∧
      (serialiseStep state memory now).next = state.next ∧
      (serialiseStep state memory now).cache = state.cache := by
  unfold serialiseStep
  split <;> exact ⟨rfl, rfl, rfl, rfl⟩

theorem appendStep_cache (state : State) (reading : Bytes × Float32) (now : Int64) :
    (appendStep state reading now).cache = state.cache := by
  unfold appendStep
  split <;> rfl

theorem watch_current (libm : Libm) (run : Run) (label : Label) (next : Run)
    (current : Current run) (unambiguous : Unambiguous run label)
    (moved : watch libm run label = some next) : Current next := by
  obtain ⟨after, went, rfl⟩ := Option.map_eq_some_iff.mp moved
  cases step_moves libm run.state label after went with
  | ignored => exact current
  | received => exact current_same run _ run.built current rfl rfl rfl rfl
  | append reading now appending =>
      have aged := aged_append current.tidy run.seen current.aged reading now
      have cache := appendStep_cache run.state reading now
      exact ⟨(tidy_append current.tidy reading now).1, aged, by simpa only [record, cache] using
        current.temp, by simpa only [record, cache] using current.rh, current.uses⟩
  | test => exact current_same run _ run.built current rfl rfl rfl rfl
  | derive clock computing => exact current_derive libm run clock current unambiguous
  | serialise memory now serialising =>
      obtain ⟨store, tags, serial, cache⟩ := serialiseStep_same run.state memory now
      exact current_same run _ _ current store tags serial cache
  | send => exact current_same run _ run.built current rfl rfl rfl rfl
  | reset sent resetting =>
      refine ⟨⟨rfl, nofun, List.Pairwise.nil, nofun⟩, fun reading member => ?_, current.temp,
        current.rh, current.uses⟩
      exact ⟨(current.aged reading member).1, .inr nofun⟩
  | drain => exact current_same run _ run.built current rfl rfl rfl rfl

/-- In a run whose calls find one value for each of the two names, every call that
appends computes from the latest readings seen. -/
theorem derived_from_latest (libm : Libm) (run : Run)
    (reached : ReachableWithin (watch libm) Starts Unambiguous run) :
    ∀ use ∈ run.uses, use.FromLatest := by
  have current : Current run := by
    refine reachable_within_invariant (watch libm) Starts Current Unambiguous ?_ ?_ run reached
    · rintro _ rfl
      exact ⟨tidy_initial, nofun, nofun, nofun, nofun⟩
    · exact fun before label next => watch_current libm before label next
  exact current.uses

def sampled (datagrams : List String) : List Label :=
  datagrams.flatMap fun text => [.receive (ascii text), .append 0]

/-- Two temperatures that agree. -/
theorem derived_from_latest_agreeing : ∃ run,
    exec (watch ⟨Float.log, Float.exp⟩) ⟨initial, [], [], []⟩
      (sampled ["htu21d_temp:21", "htu21d_temp:21.0", "htu21d_rh:50"] ++
        [.test, .derive ⟨0, 0, 0⟩]) = some run ∧
      run.uses.length = 1 ∧ ∀ use ∈ run.uses, use.FromLatest := by
  have used : (exec (watch ⟨Float.log, Float.exp⟩) ⟨initial, [], [], []⟩
      (sampled ["htu21d_temp:21", "htu21d_temp:21.0", "htu21d_rh:50"] ++
        [.test, .derive ⟨0, 0, 0⟩])).map (fun run => run.uses.length) = some 1 := by
    decide +kernel
  obtain ⟨run, ran, count⟩ := Option.map_eq_some_iff.mp used
  exact ⟨run, ran, count, derived_from_latest _ run ⟨_, _, rfl, by decide +kernel, ran⟩⟩

/-- The older of two temperatures in one cycle is the one used. -/
theorem older_temperature_is_used :
    ¬ ∀ libm run, Reachable (watch libm) Starts run → ∀ use ∈ run.uses, use.FromLatest := by
  intro always
  have stale : (exec (watch ⟨Float.log, Float.exp⟩) ⟨initial, [], [], []⟩
      (sampled ["htu21d_temp:20", "htu21d_temp:22", "htu21d_rh:50"] ++
        [.test, .derive ⟨0, 0, 0⟩])).map
          (fun run => decide (∀ use ∈ run.uses, use.FromLatest)) = some false := by
    decide +kernel
  obtain ⟨run, ran, value⟩ := Option.map_eq_some_iff.mp stale
  exact of_decide_eq_false value (always _ run ⟨_, _, rfl, ran⟩)

/-! ## All three or none -/

/-- None of the three derived metrics, or each of them once. -/
def AllOrNone (entries : List SensorData) : Prop :=
  (∀ name ∈ derivedNames, entries.countP (named name) = 0) ∨
    ∀ name ∈ derivedNames, entries.countP (named name) = 1

instance (entries : List SensorData) : Decidable (AllOrNone entries) :=
  inferInstanceAs (Decidable (_ ∨ _))

/-- No datagram uses one of the three names. -/
def OwnNames (run : Run) (label : Label) : Prop :=
  match label, run.state.listener with
  | .append _, .appending reading => (SensorName.copy reading.1).bytes ∉ derivedNames
  | _, _ => True

/-- The reading that an append is about to store. -/
def appended : Label → Listener → Option (Bytes × Float32)
  | .append _, .appending reading => some reading
  | _, _ => none

theorem ownNames_iff (run : Run) (label : Label) :
    (∀ reading ∈ appended label run.state.listener,
      (SensorName.copy reading.1).bytes ∉ derivedNames) ↔ OwnNames run label := by
  unfold appended OwnNames
  split <;> simp

instance (run : Run) (label : Label) : Decidable (OwnNames run label) :=
  decidable_of_iff _ (ownNames_iff run label)

/-- A call that may append finds the store full, or room for all three and none of them. -/
def RoomForAll (run : Run) : Label → Prop
  | .derive _ => derivable (refreshCache run.state.cache run.state.store) = true →
      run.state.store.count = maxSensors ∨ run.state.store.count + 3 ≤ maxSensors ∧
        ∀ name ∈ derivedNames, run.state.store.data.countP (named name) = 0
  | _ => True

instance (run : Run) (label : Label) : Decidable (RoomForAll run label) := by
  unfold RoomForAll
  split <;> infer_instance

theorem derivedEntries_once (libm : Libm) (cache : DerivedCache) (clock : DerivedClock) :
    ∀ name ∈ derivedNames, (derivedEntries libm cache clock).countP (named name) = 1 := by
  have counted : ∀ name, (derivedEntries libm cache clock).countP (named name) =
      derivedNames.countP (· == name) := by
    intro name
    rw [← derivedEntries_bytes libm cache clock, List.countP_map]
    rfl
  intro name member
  rw [counted]
  revert name
  decide

theorem allOrNone_append (state : State) (reading : Bytes × Float32) (now : Int64)
    (whole : AllOrNone state.store.data)
    (own : (SensorName.copy reading.1).bytes ∉ derivedNames) :
    AllOrNone (appendStep state reading now).store.data := by
  unfold appendStep
  split
  · have same : ∀ name ∈ derivedNames,
        (appendReading state.store reading now).data.countP (named name) =
          state.store.data.countP (named name) := by
      intro name member
      have other : named name ⟨SensorName.copy reading.1, reading.2, now⟩ = false :=
        beq_eq_false_iff_ne.mpr fun equal => own (equal ▸ member)
      rw [appendReading, DataStore.push_data]
      split
      · rw [List.countP_append, List.countP_singleton, other]
        rfl
      · rfl
    exact whole.imp (fun none name member => (same name member).trans (none name member))
      fun once name member => (same name member).trans (once name member)
  · exact whole

theorem allOrNone_derive (libm : Libm) (run : Run) (clock : DerivedClock)
    (whole : AllOrNone run.state.store.data) (room : RoomForAll run (.derive clock)) :
    AllOrNone (deriveStep libm run.state clock).store.data := by
  have data : (deriveStep libm run.state clock).store.data = _ :=
    computed_data libm run.state.store run.state.cache clock
  rw [data]
  by_cases ready : derivable (refreshCache run.state.cache run.state.store) = true
  · rw [if_pos ready]
    rcases room ready with full | ⟨space, none⟩
    · have closed : maxSensors - run.state.store.data.length = 0 :=
        Nat.sub_eq_zero_of_le full.ge
      rw [closed, List.take_zero, List.append_nil]
      exact whole
    · have three : 3 ≤ maxSensors - run.state.store.data.length := by
        rw [DataStore.count] at space
        omega
      have all : (derivedEntries libm (refreshCache run.state.cache run.state.store) clock).take
          (maxSensors - run.state.store.data.length) =
            derivedEntries libm (refreshCache run.state.cache run.state.store) clock :=
        List.take_of_length_le three
      rw [all]
      refine .inr fun name member => ?_
      rw [List.countP_append, none name member, derivedEntries_once libm _ clock name member]
  · rw [if_neg ready, List.append_nil]
    exact whole

/-- The store and the payloads so far. -/
structure Uniform (run : Run) : Prop where
  store : AllOrNone run.state.store.data
  built : ∀ entries ∈ run.built, AllOrNone entries

theorem watch_uniform (libm : Libm) (run : Run) (label : Label) (next : Run)
    (uniform : Uniform run) (own : OwnNames run label) (room : RoomForAll run label)
    (moved : watch libm run label = some next) : Uniform next := by
  obtain ⟨after, went, rfl⟩ := Option.map_eq_some_iff.mp moved
  cases step_moves libm run.state label after went with
  | append reading now appending =>
      simp only [OwnNames, appending] at own
      exact ⟨allOrNone_append run.state reading now uniform.store own, uniform.built⟩
  | derive clock computing =>
      exact ⟨allOrNone_derive libm run clock uniform.store room, uniform.built⟩
  | serialise memory now serialising =>
      have store := (serialiseStep_same run.state memory now).1
      refine ⟨by simpa only [record, store] using uniform.store, ?_⟩
      have entries : run.state.store.data.take (serialisedCount run.state.store now) =
          run.state.store.data := by
        rw [serialisedCount_complete, DataStore.count, List.take_length]
      simp only [record, entries]
      split
      · intro payload member
        rcases List.mem_append.mp member with before | new
        · exact uniform.built payload before
        · exact (List.mem_singleton.mp new) ▸ uniform.store
      · exact uniform.built
  | reset => exact ⟨.inl fun _ _ => rfl, uniform.built⟩
  | _ => exact ⟨uniform.store, uniform.built⟩

theorem payloads_all_or_none (libm : Libm) (run : Run)
    (reached : ReachableWithin (watch libm) Starts
      (fun run label => OwnNames run label ∧ RoomForAll run label) run) :
    ∀ entries ∈ run.built, AllOrNone entries := by
  have uniform : Uniform run := by
    refine reachable_within_invariant (watch libm) Starts Uniform _ ?_ ?_ run reached
    · rintro _ rfl
      exact ⟨.inl fun _ _ => rfl, nofun⟩
    · exact fun before label next held guarded =>
        watch_uniform libm before label next held guarded.1 guarded.2
  exact uniform.built

theorem exec_serialise (libm : Libm) (start run : Run) (labels : List Label) (now : Int64)
    (ran : exec (watch libm) start labels = some run) (ready : run.state.sender = .serialising) :
    exec (watch libm) start (labels ++ [.serialise true now]) =
      some ⟨serialiseStep run.state true now, run.seen, run.uses,
        run.built ++ [run.state.store.data]⟩ := by
  have stepped : step libm run.state (.serialise true now) =
      some (serialiseStep run.state true now) := by
    simp only [step, ready]
  have whole : run.state.store.data.take (serialisedCount run.state.store now) =
      run.state.store.data := by
    rw [serialisedCount_complete, DataStore.count, List.take_length]
  rw [exec_append, ran, Option.bind_some, exec_cons, watch, stepped, Option.map_some,
    Option.bind_some, exec_nil]
  simp only [record, createJsonPayload_complete, whole, Option.isSome_some, if_true]

def quietCycle : List Label :=
  sampled ["htu21d_temp:21", "htu21d_rh:50"] ++ [.test, .derive ⟨0, 0, 0⟩]

theorem payloads_all_or_none_one_cycle : ∃ run,
    exec (watch ⟨Float.log, Float.exp⟩) ⟨initial, [], [], []⟩
      (quietCycle ++ [.serialise true 0]) = some run ∧
      run.built.map List.length = [5] ∧ ∀ entries ∈ run.built, AllOrNone entries := by
  have filled : (exec (watch ⟨Float.log, Float.exp⟩) ⟨initial, [], [], []⟩ quietCycle).map
      (fun run => (run.state.sender, run.state.store.data.length, run.built.map List.length)) =
        some (.serialising, 5, []) := by
    decide +kernel
  obtain ⟨run, ran, value⟩ := Option.map_eq_some_iff.mp filled
  simp only [Prod.mk.injEq] at value
  have built := exec_serialise _ _ run quietCycle 0 ran value.1
  refine ⟨_, built, by simp [value.2.1, value.2.2], ?_⟩
  exact payloads_all_or_none _ _ ⟨_, quietCycle ++ [.serialise true 0], rfl,
    by decide +kernel, built⟩

/-- Readings up to one short of room for all three. -/
def crowded : List Label :=
  sampled (["htu21d_temp:21", "htu21d_rh:50"] ++ List.replicate 21 "dht11_temp:21") ++
    [.test, .derive ⟨0, 0, 0⟩]

/-- With 23 readings in the store two of the three metrics still fit. -/
theorem crowded_store_splits_metrics :
    ¬ ∀ libm run, ReachableWithin (watch libm) Starts OwnNames run →
      ∀ entries ∈ run.built, AllOrNone entries := by
  intro always
  have filled : (exec (watch ⟨Float.log, Float.exp⟩) ⟨initial, [], [], []⟩ crowded).map
      (fun run => (run.state.sender, decide (AllOrNone run.state.store.data))) =
        some (.serialising, false) := by
    decide +kernel
  obtain ⟨run, ran, value⟩ := Option.map_eq_some_iff.mp filled
  simp only [Prod.mk.injEq] at value
  have built := exec_serialise _ _ run crowded 0 ran value.1
  have all := always _ _ ⟨_, crowded ++ [.serialise true 0], rfl, by decide +kernel, built⟩
  exact of_decide_eq_false value.2 (all _ (List.mem_append_right _ List.mem_cons_self))

end SensorNode.DerivedHistory
