import SensorNode.StepSystem

/-!
Configuration reload in data-collector, image-uploader and camera-stream. Each
daemon tests a flag that its SIGHUP handler sets, loads its file and clears the
flag at the end; the daemons differ in the order of startup and in what stands
around the load. File contents are represented by the number of rewrites so far.
-/

namespace SensorNode.ReloadFlag

open StepSystem

/-- What a daemon does between two points where a signal can be observed. -/
inductive Instr where
  | install
  | load
  | closeCamera
  | openCamera
  | clear
  deriving DecidableEq

structure Daemon where
  startup : List Instr
  reload : List Instr
  /-- Does a load that cannot open the file keep the values in use? -/
  keepsOnFailure : Bool
  deriving DecidableEq

def dataCollector : Daemon := ⟨[.load, .install], [.load, .clear], true⟩

def imageUploader : Daemon := ⟨[.install, .load], [.load, .clear], false⟩

def cameraStream : Daemon :=
  ⟨[.install, .load, .openCamera], [.closeCamera, .load, .openCamera, .clear], false⟩

def daemons : List Daemon := [dataCollector, imageUploader, cameraStream]

/-- Where the main loop stands; the lists are what is left to do. -/
inductive Phase where
  | starting (rest : List Instr)
  | testing
  | reloading (rest : List Instr)
  | working
  | stopped
  deriving DecidableEq

structure State where
  phase : Phase
  handlers : Bool
  flag : Bool
  version : Nat
  /-- The file version in use; none when the built-in defaults are. -/
  config : Option Nat
  /-- The file version in place when the latest SIGHUP was delivered. -/
  requested : Option Nat
  deriving DecidableEq

def Daemon.initial (daemon : Daemon) (version : Nat) : State :=
  ⟨.starting daemon.startup, false, false, version, none, none⟩

def Starts (daemon : Daemon) (state : State) : Prop := ∃ version, state = daemon.initial version

/-- `run` is the daemon's next step, with the outcome of the open it may make: a
load fails where the file is missing or caught empty. -/
inductive Label where
  | rewrite
  | hup
  | run (opened : Bool)
  deriving DecidableEq

def execute (daemon : Daemon) (state : State) (opened : Bool) : Instr → State × Bool
  | .install => ({ state with handlers := true }, true)
  | .load =>
      if opened then ({ state with config := some state.version }, true)
      -- Two of the three set the defaults first; data-collector returns early.
      else ({ state with config := if daemon.keepsOnFailure then state.config else none }, true)
  | .closeCamera => (state, true)
  | .openCamera => (state, opened)
  | .clear => ({ state with flag := false }, true)

def step (daemon : Daemon) (state : State) : Label → Option State
  | .rewrite => some { state with version := state.version + 1 }
  | .hup =>
      -- Before `signal` runs, SIGHUP keeps its default action and ends the process.
      if state.handlers then some { state with flag := true, requested := some state.version }
      else some { state with phase := .stopped }
  | .run opened =>
      match state.phase with
      | .starting [] => some { state with phase := .testing }
      | .starting (instr :: rest) =>
          let after := execute daemon state opened instr
          some { after.1 with phase := if after.2 then .starting rest else .stopped }
      | .testing =>
          some { state with phase := if state.flag then .reloading daemon.reload else .working }
      | .reloading [] => some { state with phase := .working }
      | .reloading (instr :: rest) =>
          let after := execute daemon state opened instr
          some { after.1 with phase := if after.2 then .reloading rest else .stopped }
      | .working => some { state with phase := .testing }
      | .stopped => none

def Fresh (state : State) : Prop :=
  ∀ wanted, state.requested = some wanted → ∃ used, state.config = some used ∧ wanted ≤ used

/-- When the loop finds its flag 0, no request is outstanding. -/
def Honoured (state : State) : Prop :=
  state.phase = .testing → state.flag = false → Fresh state

/-- The file has been read by this reload and the flag is still to be cleared. -/
def Phase.stale : Phase → Bool
  | .reloading rest => decide (.load ∉ rest) && decide (.clear ∈ rest)
  | _ => false

def Phase.loads : Phase → Bool
  | .reloading (.load :: _) => true
  | _ => false

instance (state : State) : Decidable (Fresh state) :=
  match requested : state.requested, config : state.config with
  | none, _ => isTrue (fun _ same => nomatch requested.symm.trans same)
  | some _, none =>
      isFalse (fun fresh => (fresh _ requested).elim fun _ used => nomatch config.symm.trans used.1)
  | some wanted, some used =>
      decidable_of_iff (wanted ≤ used) (by simp [Fresh, requested, config])

instance (state : State) : Decidable (Honoured state) :=
  inferInstanceAs (Decidable (_ → _ → _))

/-- No SIGHUP for a file rewritten since the load arrives before the flag is
cleared, and the load of a reload can open the file, or keeps values that answer
the latest request. -/
def NoneBetween (daemon : Daemon) (state : State) : Label → Prop
  | .rewrite => True
  | .hup => state.phase.stale = true → state.config = some state.version
  | .run opened => state.phase.loads = true →
      opened = true ∨ daemon.keepsOnFailure = true ∧ Fresh state

instance (daemon : Daemon) (state : State) (label : Label) :
    Decidable (NoneBetween daemon state label) := by
  unfold NoneBetween
  split <;> infer_instance

/-! ## The invariant -/

/-- The flag is cleared after the last load only. -/
def ClearsLast : List Instr → Prop
  | [] => True
  | .clear :: rest => .load ∉ rest ∧ ClearsLast rest
  | _ :: rest => ClearsLast rest

theorem daemons_clearLast (daemon : Daemon) (member : daemon ∈ daemons) :
    ClearsLast daemon.reload ∧ .load ∈ daemon.reload ∧ .clear ∉ daemon.startup := by
  simp only [daemons, List.mem_cons, List.not_mem_nil, or_false] at member
  rcases member with same | same | same <;> subst same <;>
    simp [dataCollector, imageUploader, cameraStream, ClearsLast]

/-- What must hold at each phase for no request to be lost. -/
def Tracked (state : State) : Phase → Prop
  | .starting rest => .clear ∉ rest ∧ (state.flag = true ∨ state.requested = none)
  | .testing | .working => state.flag = true ∨ Fresh state
  | .reloading rest => ClearsLast rest ∧
      if .load ∈ rest then state.flag = true
      else if .clear ∈ rest then Fresh state
      else state.flag = true ∨ Fresh state
  | .stopped => True

structure Tracks (state : State) : Prop where
  known : ∀ wanted, state.requested = some wanted → wanted ≤ state.version
  phase : Tracked state state.phase

theorem fresh_none (state : State) (none : state.requested = none) : Fresh state := by
  intro wanted same
  rw [none] at same
  cases same

theorem tracks_initial (daemon : Daemon) (member : daemon ∈ daemons) (version : Nat) :
    Tracks (daemon.initial version) :=
  ⟨nofun, (daemons_clearLast daemon member).2.2, .inr rfl⟩

theorem clearsLast_tail (instr : Instr) (rest : List Instr) (ordered : ClearsLast (instr :: rest)) :
    ClearsLast rest := by
  cases instr with
  | clear => exact ordered.2
  | _ => exact ordered

/-- A request sets the flag, which is lost only if it was about to be cleared. -/
theorem tracks_hup (state : State) (tracks : Tracks state)
    (guarded : state.phase.stale = true → state.config = some state.version) :
    Tracks { state with flag := true, requested := some state.version } := by
  refine ⟨fun wanted same => Nat.le_of_eq (Option.some.inj same).symm, ?_⟩
  have before := tracks.phase
  cases phase : state.phase with
  | starting rest =>
      rw [phase] at before
      exact ⟨before.1, .inl rfl⟩
  | testing => exact .inl rfl
  | working => exact .inl rfl
  | stopped => trivial
  | reloading rest =>
      rw [phase] at before guarded
      -- Before the load the set flag is enough; after it the guard says what was read.
      refine ⟨before.1, ?_⟩
      split
      · rfl
      · next loaded =>
        split
        · next pending =>
          intro wanted same
          refine ⟨state.version, guarded ?_, Nat.le_of_eq (Option.some.inj same).symm⟩
          simp [Phase.stale, loaded, pending]
        · exact .inl rfl

theorem tracks_rewrite (state : State) (tracks : Tracks state) :
    Tracks { state with version := state.version + 1 } :=
  ⟨fun wanted same => Nat.le_succ_of_le (tracks.known wanted same), tracks.phase⟩

theorem execute_requested (daemon : Daemon) (state : State) (opened : Bool) (instr : Instr) :
    (execute daemon state opened instr).1.requested = state.requested ∧
      (execute daemon state opened instr).1.version = state.version := by
  cases instr with
  | load => cases opened <;> exact ⟨rfl, rfl⟩
  | _ => exact ⟨rfl, rfl⟩

theorem execute_flag (daemon : Daemon) (state : State) (opened : Bool) (instr : Instr)
    (keeps : instr ≠ .clear) : (execute daemon state opened instr).1.flag = state.flag := by
  cases instr with
  | load => cases opened <;> rfl
  | clear => exact absurd rfl keeps
  | _ => rfl

theorem execute_config (daemon : Daemon) (state : State) (opened : Bool) (instr : Instr)
    (other : instr ≠ .load) : (execute daemon state opened instr).1.config = state.config := by
  cases instr with
  | load => exact absurd rfl other
  | _ => rfl

theorem execute_fresh (daemon : Daemon) (state : State) (opened : Bool) (instr : Instr)
    (other : instr ≠ .load) (fresh : Fresh state) :
    Fresh (execute daemon state opened instr).1 := by
  intro wanted same
  rw [(execute_requested daemon state opened instr).1] at same
  rw [execute_config daemon state opened instr other]
  exact fresh wanted same

theorem execute_load (daemon : Daemon) (state : State) (opened : Bool)
    (known : ∀ wanted, state.requested = some wanted → wanted ≤ state.version)
    (guarded : opened = true ∨ daemon.keepsOnFailure = true ∧ Fresh state) :
    Fresh (execute daemon state opened .load).1 := by
  cases opened with
  | true => exact fun wanted same => ⟨state.version, rfl, known wanted same⟩
  | false =>
      rcases guarded with opened | ⟨keeps, fresh⟩
      · cases opened
      · intro wanted same
        simp only [execute, Bool.false_eq_true, if_false, keeps, if_true] at same ⊢
        exact fresh wanted same

theorem tracked_reload (daemon : Daemon) (state : State) (opened : Bool) (instr : Instr)
    (rest : List Instr) (known : ∀ wanted, state.requested = some wanted → wanted ≤ state.version)
    (before : Tracked state (.reloading (instr :: rest)))
    (guarded : instr = .load → opened = true ∨ daemon.keepsOnFailure = true ∧ Fresh state) :
    Tracked (execute daemon state opened instr).1 (.reloading rest) := by
  obtain ⟨ordered, inside⟩ := before
  refine ⟨clearsLast_tail instr rest ordered, ?_⟩
  cases instr with
  | load =>
      rw [if_pos List.mem_cons_self] at inside
      have loaded := execute_load daemon state opened known (guarded rfl)
      have flag := execute_flag daemon state opened .load nofun
      split
      · exact flag.trans inside
      · split
        · exact loaded
        · exact .inr loaded
  | clear =>
      -- No load follows, so what the clear erases must be answered already.
      have done : Instr.load ∉ rest := ordered.1
      have fresh : Fresh state := by
        simpa [done] using inside
      have kept := execute_fresh daemon state opened .clear nofun fresh
      rw [if_neg done]
      split
      · exact kept
      · exact .inr kept
  | _ =>
      simp only [List.mem_cons, reduceCtorEq, false_or] at inside
      exact inside

theorem tracked_startup (daemon : Daemon) (state : State) (opened : Bool) (instr : Instr)
    (rest : List Instr) (before : Tracked state (.starting (instr :: rest))) :
    Tracked (execute daemon state opened instr).1 (.starting rest) := by
  have first : instr ≠ .clear := fun same => before.1 (same ▸ List.mem_cons_self)
  refine ⟨fun later => before.1 (List.mem_cons_of_mem instr later), ?_⟩
  rw [execute_flag daemon state opened instr first,
    (execute_requested daemon state opened instr).1]
  exact before.2

theorem tracks_execute (daemon : Daemon) (state : State) (opened : Bool) (instr : Instr)
    (phase : Phase) (tracks : Tracks state)
    (tracked : Tracked (execute daemon state opened instr).1 phase) :
    let after := execute daemon state opened instr
    Tracks { after.1 with phase := if after.2 then phase else .stopped } := by
  obtain ⟨requested, version⟩ := execute_requested daemon state opened instr
  refine ⟨fun wanted same => ?_, ?_⟩
  · simp only [requested, version] at same ⊢
    exact tracks.known wanted same
  · simp only
    split
    · exact tracked
    · trivial

theorem tracks_run (daemon : Daemon) (member : daemon ∈ daemons) (state : State) (opened : Bool)
    (next : State) (tracks : Tracks state) (guarded : NoneBetween daemon state (.run opened))
    (moved : step daemon state (.run opened) = some next) : Tracks next := by
  have before := tracks.phase
  simp only [step] at moved
  split at moved
  · next phase =>
    cases moved
    rw [phase] at before
    exact ⟨tracks.known, before.2.imp id (fresh_none state)⟩
  · next instr rest phase =>
    cases moved
    rw [phase] at before
    exact tracks_execute daemon state opened instr (.starting rest) tracks
      (tracked_startup daemon state opened instr rest before)
  · next phase =>
    cases moved
    rw [phase] at before
    refine ⟨tracks.known, ?_⟩
    simp only
    split
    · next set =>
      -- The reload loads before it clears the flag, so no request is lost yet.
      obtain ⟨ordered, loads, _⟩ := daemons_clearLast daemon member
      refine ⟨ordered, ?_⟩
      rw [if_pos loads]
      exact set
    · exact before
  · next phase =>
    cases moved
    rw [phase] at before
    exact ⟨tracks.known, before.2⟩
  · next instr rest phase =>
    cases moved
    rw [phase] at before
    apply tracks_execute daemon state opened instr (.reloading rest) tracks
    apply tracked_reload daemon state opened instr rest tracks.known before
    intro load
    -- A load misses the file only where the values in use answer the latest request.
    apply guarded
    rw [phase, load]
    rfl
  · next phase =>
    cases moved
    rw [phase] at before
    exact ⟨tracks.known, before⟩
  · cases moved

theorem tracks_step (daemon : Daemon) (member : daemon ∈ daemons) (state : State) (label : Label)
    (next : State) (tracks : Tracks state) (guarded : NoneBetween daemon state label)
    (moved : step daemon state label = some next) : Tracks next := by
  cases label with
  | rewrite =>
      cases moved
      exact tracks_rewrite state tracks
  | hup =>
      simp only [step] at moved
      split at moved
      · cases moved
        exact tracks_hup state tracks guarded
      · cases moved
        exact ⟨tracks.known, trivial⟩
  | run opened => exact tracks_run daemon member state opened next tracks guarded moved

/-- In a run where no SIGHUP for a newer file arrives between a load and the
clearing of the flag, and no reload misses its file, no request is lost. -/
theorem reloads_honoured (daemon : Daemon) (member : daemon ∈ daemons) (state : State)
    (reached : ReachableWithin (step daemon) (Starts daemon) (NoneBetween daemon) state) :
    Honoured state := by
  have tracks : Tracks state := by
    apply reachable_within_invariant (step daemon) (Starts daemon) Tracks (NoneBetween daemon) _
      (tracks_step daemon member) state reached
    rintro _ ⟨version, rfl⟩
    exact tracks_initial daemon member version
  intro testing flag
  have inside := tracks.phase
  rw [testing] at inside
  rcases inside with set | fresh
  · rw [flag] at set
    cases set
  · exact fresh

def cameraReload : List Label :=
  List.replicate 4 (.run true) ++ [.rewrite, .hup] ++ List.replicate 7 (.run true)

theorem reloads_honoured_camera :
    Honoured ⟨.testing, true, false, 1, some 1, some 1⟩ :=
  reloads_honoured cameraStream (by decide) _
    ⟨cameraStream.initial 0, cameraReload, ⟨0, rfl⟩, by decide, by decide⟩

/-- Two rewrites, each followed by its SIGHUP; the second pair falls behind the
load of the reload that the first one asked for. -/
def overtaken (daemon : Daemon) : List Label :=
  let before := daemon.reload.takeWhile (· ≠ .load)
  List.replicate (daemon.startup.length + 1) (.run true) ++ [.rewrite, .hup] ++
    List.replicate (before.length + 2) (.run true) ++ [.rewrite, .hup] ++
    List.replicate (daemon.reload.length - before.length + 1) (.run true)

/-- The clearing of the flag erases the second request: the loop finds its flag 0
with the values of the first file. -/
theorem reload_overtaken (daemon : Daemon) (member : daemon ∈ daemons) :
    exec (step daemon) (daemon.initial 0) (overtaken daemon) =
      some ⟨.testing, true, false, 2, some 1, some 2⟩ := by
  revert daemon
  decide

/-- None of the daemons honours every request. -/
theorem request_erased_by_clear :
    ¬ ∃ daemon ∈ daemons, ∀ state, Reachable (step daemon) (Starts daemon) state →
      Honoured state := by
  rintro ⟨daemon, member, honoured⟩
  have reached := reload_overtaken daemon member
  exact absurd (honoured _ ⟨daemon.initial 0, overtaken daemon, ⟨0, rfl⟩, reached⟩) (by decide)

end SensorNode.ReloadFlag
