import SensorNode.CaptureLoop

/-!
What camera-stream owns over whole runs of its capture loop. The variables of
`main` name the resources held only in some phases of the loop; the runs kept
here are those in which no failed open leaves a mapping behind and the loop is
not entered again with `cam_fd` -1.
-/

namespace SensorNode.CameraOwnership

open StepSystem ResourceLedger CaptureLoop

/-- Nothing is released that is not held, and what was acquired has been released
exactly once by the time `main` returns. -/
structure Released (state : State) : Prop where
  sound : (audit state.ledger.log).isSome
  once : ∀ code, state.phase = .ended code → ∀ resource,
    .acquire resource ∈ state.ledger.log → state.ledger.log.count (.release resource) = 1

/-- `open_camera` does not fail with a buffer mapped, and the loop is entered
only with an open camera. -/
def Recovers (state : State) : Label → Prop
  | .opening driver => driver.failsMapped = false
  | .test running _ => running = true → state.camFd.isSome
  | .select _ | .dequeue _ => True

instance (state : State) (label : Label) : Decidable (Recovers state label) := by
  unfold Recovers
  split <;> infer_instance

/-- The variables name an open camera, which is all that is held. -/
def Serves (state : State) : Prop :=
  ∃ fd bufs, state.camFd = some fd ∧ state.bufs = some bufs ∧
    state.nBufs = bufs.starts.length ∧ Holds Resource.id state.ledger (owned fd bufs)

def Idle (state : State) : Prop := Holds Resource.id state.ledger []

/-- What is held, phase by phase. -/
def Owned (state : State) : Phase → Prop
  | .testing => Serves state ∨ state.camFd = none ∧ Idle state
  | .selecting | .dequeuing => Serves state
  | .starting | .reloading | .reopening _ _ | .ended _ => Idle state

theorem idle_release (state : State) (serves : Serves state) (phase : Phase) :
    Idle (release state phase) := by
  obtain ⟨fd, bufs, open', array, whole, holds⟩ := serves
  simp only [Idle, release, open', array]
  exact closeCamera_holds fd bufs state.nBufs state.ledger holds whole

theorem idle_finish (state : State) (owned : Serves state ∨ state.camFd = none ∧ Idle state) :
    Idle (finish state) ∧ (finish state).phase = .ended 0 := by
  unfold finish
  rcases owned with serves | ⟨closed, idle⟩
  · obtain ⟨fd, _, opened, _⟩ := id serves
    rw [if_pos (by rw [opened]; rfl)]
    exact ⟨idle_release state serves (.ended 0), rfl⟩
  · rw [if_neg (by rw [closed]; simp)]
    exact ⟨idle, rfl⟩

theorem assign_owned (state : State) (driver : Driver) (idle : Idle state)
    (sound : driver.failsMapped = false) :
    let next := assign state (openCamera driver state.ledger)
    Serves next ∨ next.camFd = none ∧ Idle next := by
  have holding := openCamera_holds driver state.ledger idle sound
  intro next
  cases result : (openCamera driver state.ledger).1 with
  | none =>
      rw [result] at holding
      have same : next = { state with
          camFd := none, ledger := (openCamera driver state.ledger).2 } := by
        simp only [next, assign, result]
      rw [same]
      exact .inr ⟨rfl, holding⟩
  | some camera =>
      rw [result] at holding
      have same : next = { state with
          camFd := some camera.fd, bufs := some camera.bufs, nBufs := camera.nBufs,
          ledger := (openCamera driver state.ledger).2 } := by
        simp only [next, assign, result]
      rw [same]
      exact .inl ⟨camera.fd, camera.bufs, rfl, rfl, holding.2, holding.1⟩

theorem serves_open (state : State) (owned : Serves state ∨ state.camFd = none ∧ Idle state)
    (opened : state.camFd.isSome = true) : Serves state := by
  rcases owned with serves | ⟨closed, _⟩
  · exact serves
  · rw [closed] at opened
    cases opened

theorem idle_closed (state : State) (owned : Serves state ∨ state.camFd = none ∧ Idle state)
    (closed : ¬ state.camFd.isSome = true) : state.camFd = none ∧ Idle state := by
  rcases owned with ⟨fd, _, opened, _⟩ | idle
  · rw [opened] at closed
    exact absurd rfl closed
  · exact idle

theorem owned_finish (state : State) (owned : Serves state ∨ state.camFd = none ∧ Idle state) :
    Owned (finish state) (finish state).phase := by
  obtain ⟨idle, ended⟩ := idle_finish state owned
  rw [ended]
  exact idle

theorem owned_reopened (state : State) (owned : Serves state ∨ state.camFd = none ∧ Idle state) :
    Owned (reopened state) (reopened state).phase := by
  unfold reopened
  split
  · next fd opened => exact .inl (serves_open state owned (by rw [opened]; rfl))
  · next closed =>
    have idle := idle_closed state owned (by simp [closed])
    simp only
    split
    · exact owned_finish { state with reopenAttempts := state.reopenAttempts + 1 } (.inr idle)
    · exact .inr idle

theorem owned_afterOpen (state : State) (phase : Phase)
    (owned : Serves state ∨ state.camFd = none ∧ Idle state) :
    Owned (afterOpen state phase) (afterOpen state phase).phase := by
  unfold afterOpen
  split
  · split
    · next opened => exact .inl (serves_open state owned opened)
    · next closed => exact (idle_closed state owned closed).2
  · split
    · next opened => exact serves_open state owned opened
    · exact owned_finish state owned
  · exact owned_reopened state owned

theorem owned_afterSelect (state : State) (outcome : Selected) (serves : Serves state) :
    Owned (afterSelect state outcome) (afterSelect state outcome).phase := by
  cases outcome with
  | interrupted => exact .inl serves
  | failed => exact .inl serves
  | ready => exact serves
  | timeout =>
      simp only [afterSelect]
      split
      · exact idle_release
          { state with consecutiveTimeouts := state.consecutiveTimeouts + 1 } serves _
      · exact .inl serves

theorem owned_afterDequeue (state : State) (outcome : Dequeued) (serves : Serves state) :
    Owned (afterDequeue state outcome) (afterDequeue state outcome).phase := by
  cases outcome with
  | empty => exact .inl serves
  | failed => exact idle_release state serves _
  | frame => exact .inl serves

-- One case for each kind of call; a reopen, a reload and the start share the open.
theorem owned_step (state : State) (label : Label) (next : State)
    (owned : Owned state state.phase) (recovers : Recovers state label)
    (moved : step state label = some next) : Owned next next.phase := by
  cases step_moves state label next moved with
  | opening driver phase =>
      rcases phase with phase | phase | ⟨attempt, wait, phase⟩
      all_goals
        rw [phase] at owned ⊢
        exact owned_afterOpen _ _ (assign_owned state driver owned recovers)
  | test running reload phase =>
      rw [phase] at owned
      cases running with
      | false => exact owned_finish state owned
      | true =>
          have serves : Serves state := serves_open state owned (recovers rfl)
          cases reload with
          | false => exact serves
          | true => exact idle_release state serves .reloading
  | select outcome phase =>
      rw [phase] at owned
      exact owned_afterSelect state _ owned
  | dequeue outcome phase =>
      rw [phase] at owned
      exact owned_afterDequeue state outcome owned

theorem released_of_owned (state : State) (owned : Owned state state.phase) : Released state := by
  refine ⟨?_, ?_⟩
  · have audits : ∀ held, Holds Resource.id state.ledger held → (audit state.ledger.log).isSome :=
      fun _ holds => holds.audits
    have serving : Serves state → (audit state.ledger.log).isSome :=
      fun ⟨_, _, _, _, _, holds⟩ => audits _ holds
    cases phase : state.phase with
    | testing =>
        rw [phase] at owned
        exact owned.elim serving fun idle => audits _ idle.2
    | selecting =>
        rw [phase] at owned
        exact serving owned
    | dequeuing =>
        rw [phase] at owned
        exact serving owned
    | _ =>
        rw [phase] at owned
        exact audits _ owned
  · intro code ended resource acquired
    rw [ended] at owned
    exact Holds.released_once owned resource acquired

/-- In a run where no failed open leaves a mapping and the loop is entered only
with an open camera, each resource is released exactly once. -/
theorem camera_released (state : State)
    (reached : ReachableWithin step Starts Recovers state) : Released state := by
  apply released_of_owned
  apply reachable_within_invariant step Starts (fun state => Owned state state.phase) Recovers _
    owned_step state reached
  rintro _ rfl
  exact holds_empty

def working : Driver :=
  ⟨true, true, some 2, true, fun _ => true, fun _ => true, fun _ => true, true⟩

def recovered : List Label :=
  [.opening working, .test true false, .select .ready, .dequeue .failed, .opening working,
    .test true true, .opening working, .select .timeout, .test false false]

theorem camera_released_recovered :
    ∃ state, exec step initial recovered = some state ∧ state.phase = .ended 0 ∧
      Released state :=
  ⟨_, rfl, rfl, camera_released _ ⟨initial, recovered, rfl, by decide, rfl⟩⟩

/-- The camera stalls, cannot be reopened, and the loop is entered again. -/
def stalled : List Label :=
  .opening working :: (List.replicate 5 [.test true false, .select .timeout]).flatten ++
    [.opening { working with opens := false }, .test true false, .select .timeout]

/-- The second `close_camera` frees the array again; and an `open_camera` that
fails at its second buffer never unmaps the first. -/
theorem camera_not_released :
    (∃ state, exec step initial stalled = some state ∧ ¬ Released state) ∧
      ∃ state, exec step initial [.opening { working with maps := (· = 0) }] = some state ∧
        ¬ Released state := by
  refine ⟨⟨_, rfl, fun released => ?_⟩, ⟨_, rfl, fun released => ?_⟩⟩
  · exact absurd released.sound (by decide)
  · have once := released.once 1 rfl (mapping 2) (by decide)
    exact absurd once (by decide)

end SensorNode.CameraOwnership
