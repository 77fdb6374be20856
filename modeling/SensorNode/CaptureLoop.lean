import SensorNode.ResourceLedger

/-!
The capture loop of camera-stream: `open_camera`, `close_camera`,
`reopen_camera` and the loop of `main` between its calls into the driver. Each
call that can fail is a label with its outcome. Descriptors, `MmapBuffer` arrays
and mappings are numbered when they are made, so that two uses of one descriptor
value stay apart, and every acquisition and release is logged.
-/

namespace SensorNode.CaptureLoop

open StepSystem ResourceLedger

inductive Kind where
  | descriptor
  | array
  | mapping
  deriving DecidableEq

structure Resource where
  kind : Kind
  id : Nat
  deriving DecidableEq

def descriptor (id : Nat) : Resource := ⟨.descriptor, id⟩
def array (id : Nat) : Resource := ⟨.array, id⟩
def mapping (id : Nat) : Resource := ⟨.mapping, id⟩

/-- A `MmapBuffer` array and the mapping that each entry starts at. -/
structure MmapBuffers where
  array : Nat
  starts : List Nat
  deriving DecidableEq

/-- The outcomes of the calls that `open_camera` makes; `requests` is the number
of buffers that VIDIOC_REQBUFS grants. -/
structure Driver where
  opens : Bool
  formats : Bool
  requests : Option Nat
  allocates : Bool
  queries : Nat → Bool
  maps : Nat → Bool
  enqueues : Nat → Bool
  streams : Bool

/-- What `open_camera` returns and stores through its out parameters. -/
structure Camera where
  fd : Nat
  bufs : MmapBuffers
  nBufs : Nat
  deriving DecidableEq

structure Mapped where
  complete : Bool
  starts : List Nat
  ledger : Ledger Resource

def mapBuffers (driver : Driver) : Nat → Nat → Ledger Resource → Mapped
  | 0, _, ledger => ⟨true, [], ledger⟩
  | todo + 1, index, ledger =>
      if driver.queries index && driver.maps index then
        let rest := mapBuffers driver todo (index + 1) (ledger.acquire (mapping ledger.fresh))
        ⟨rest.complete, ledger.fresh :: rest.starts, rest.ledger⟩
      else ⟨false, [], ledger⟩

def enqueueBuffers (driver : Driver) (count : Nat) : Bool :=
  (List.range count).all driver.enqueues

def openCamera (driver : Driver) (ledger : Ledger Resource) :
    Option Camera × Ledger Resource :=
  if !driver.opens then (none, ledger)
  else
    let fd := ledger.fresh
    let opened := ledger.acquire (descriptor fd)
    if !driver.formats then (none, opened.release (descriptor fd))
    else
      match driver.requests with
      | none => (none, opened.release (descriptor fd))
      | some count =>
          if !driver.allocates then (none, opened.release (descriptor fd))
          else
            let bufs := opened.fresh
            let mapped := mapBuffers driver count 0 (opened.acquire (array bufs))
            if mapped.complete && enqueueBuffers driver count && driver.streams then
              (some ⟨fd, ⟨bufs, mapped.starts⟩, count⟩, mapped.ledger)
            else
              -- `free(bufs); close(fd)`: what has been mapped stays mapped.
              (none, (mapped.ledger.release (array bufs)).release (descriptor fd))

/-- `free` of NULL and `close` of -1 release nothing. -/
def closeCamera (fd : Option Nat) (bufs : Option MmapBuffers) (nBufs : Nat)
    (ledger : Ledger Resource) : Ledger Resource :=
  let freed := match bufs with
    | none => ledger
    | some bufs =>
        (ledger.releaseAll ((bufs.starts.take nBufs).map mapping)).release (array bufs.array)
  match fd with
  | none => freed
  | some fd => freed.release (descriptor fd)

/-- `reopening` is `reopen_camera` in its `sleep`, with its argument and the
seconds it sleeps for. -/
inductive Phase where
  | starting
  | testing
  | reloading
  | selecting
  | dequeuing
  | reopening (attempt wait : Nat)
  | ended (code : Nat)
  deriving DecidableEq

structure State where
  phase : Phase
  camFd : Option Nat
  bufs : Option MmapBuffers
  nBufs : Nat
  consecutiveTimeouts : Nat
  reopenAttempts : Nat
  ledger : Ledger Resource

def initial : State := ⟨.starting, none, none, 0, 0, 0, .empty⟩

def stallMaxTimeouts : Nat := 5
def maxReopenAttempts : Nat := 5

def backoff (attempt : Nat) : Nat := min (1 <<< attempt) 16

inductive Selected where
  | interrupted
  | timeout
  | failed
  | ready
  deriving DecidableEq

inductive Dequeued where
  | empty
  | failed
  | frame
  deriving DecidableEq

inductive Label where
  | opening (driver : Driver)
  | test (running reload : Bool)
  | select (outcome : Selected)
  | dequeue (outcome : Dequeued)

def assign (state : State) (opened : Option Camera × Ledger Resource) : State :=
  match opened.1 with
  | none => { state with camFd := none, ledger := opened.2 }
  | some camera =>
      { state with
        camFd := some camera.fd, bufs := some camera.bufs, nBufs := camera.nBufs,
        ledger := opened.2 }

def release (state : State) (phase : Phase) : State :=
  { state with
    phase := phase
    ledger := closeCamera state.camFd state.bufs state.nBufs state.ledger }

def finish (state : State) : State :=
  if state.camFd.isSome then release state (.ended 0) else { state with phase := .ended 0 }

def settled (state : State) (phase : Phase) : State :=
  { state with phase := phase, consecutiveTimeouts := 0, reopenAttempts := 0 }

def reopenCamera (state : State) : State :=
  release state (.reopening state.reopenAttempts (backoff state.reopenAttempts))

def reopened (state : State) : State :=
  match state.camFd with
  | some _ => settled state .testing
  | none =>
      -- The loop goes on with `cam_fd` -1 and the array that was just freed.
      let counted := { state with reopenAttempts := state.reopenAttempts + 1 }
      if counted.reopenAttempts ≥ maxReopenAttempts then finish counted
      else { counted with phase := .testing, consecutiveTimeouts := stallMaxTimeouts }

def afterSelect (state : State) : Selected → State
  | .interrupted | .failed => { state with phase := .testing }
  | .ready => { state with phase := .dequeuing }
  | .timeout =>
      let counted := { state with consecutiveTimeouts := state.consecutiveTimeouts + 1 }
      if counted.consecutiveTimeouts ≥ stallMaxTimeouts then reopenCamera counted
      else { counted with phase := .testing }

def afterDequeue (state : State) : Dequeued → State
  | .empty => { state with phase := .testing }
  | .failed => reopenCamera state
  | .frame => settled state .testing

def afterOpen (state : State) : Phase → State
  | .starting =>
      if state.camFd.isSome then { state with phase := .testing }
      else { state with phase := .ended 1 }
  | .reloading => if state.camFd.isSome then settled state .selecting else finish state
  | _ => reopened state

def step (state : State) : Label → Option State
  | .opening driver =>
      match state.phase with
      | .starting | .reloading | .reopening _ _ =>
          some (afterOpen (assign state (openCamera driver state.ledger)) state.phase)
      | _ => none
  | .test running reload =>
      if state.phase = .testing then
        some (if !running then finish state
          else if reload then release state .reloading
          else { state with phase := .selecting })
      else none
  | .select outcome =>
      if state.phase = .selecting then
        -- With `cam_fd` -1 no descriptor is watched, and `select` times out.
        some (afterSelect state (if state.camFd.isSome then outcome else .timeout))
      else none
  | .dequeue outcome =>
      if state.phase = .dequeuing then some (afterDequeue state outcome) else none

def Starts (state : State) : Prop := state = initial

/-- What a step finds and leaves. -/
inductive Moves (state : State) : Label → State → Prop where
  | opening (driver : Driver)
      (phase : state.phase = .starting ∨ state.phase = .reloading ∨
        ∃ attempt wait, state.phase = .reopening attempt wait) :
      Moves state (.opening driver)
        (afterOpen (assign state (openCamera driver state.ledger)) state.phase)
  | test (running reload : Bool) (phase : state.phase = .testing) :
      Moves state (.test running reload)
        (if !running then finish state
          else if reload then release state .reloading
          else { state with phase := .selecting })
  | select (outcome : Selected) (phase : state.phase = .selecting) :
      Moves state (.select outcome)
        (afterSelect state (if state.camFd.isSome then outcome else .timeout))
  | dequeue (outcome : Dequeued) (phase : state.phase = .dequeuing) :
      Moves state (.dequeue outcome) (afterDequeue state outcome)

theorem step_moves (state : State) (label : Label) (next : State)
    (moved : step state label = some next) : Moves state label next := by
  cases label with
  | opening driver =>
      simp only [step] at moved
      split at moved
      · next phase => exact Option.some.inj moved ▸ .opening driver (.inl phase)
      · next phase => exact Option.some.inj moved ▸ .opening driver (.inr (.inl phase))
      · next attempt wait phase =>
        exact Option.some.inj moved ▸ .opening driver (.inr (.inr ⟨attempt, wait, phase⟩))
      · cases moved
  | test running reload =>
      simp only [step] at moved
      split at moved
      · next phase => exact Option.some.inj moved ▸ .test running reload phase
      · cases moved
  | select outcome =>
      simp only [step] at moved
      split at moved
      · next phase => exact Option.some.inj moved ▸ .select outcome phase
      · cases moved
  | dequeue outcome =>
      simp only [step] at moved
      split at moved
      · next phase => exact Option.some.inj moved ▸ .dequeue outcome phase
      · cases moved

/-! ## Opening and closing -/

/-- What an open camera holds, in the order in which it is released. -/
def owned (fd : Nat) (bufs : MmapBuffers) : List Resource :=
  bufs.starts.map mapping ++ [array bufs.array, descriptor fd]

def Driver.completes (driver : Driver) (count : Nat) : Bool :=
  (List.range' 0 count).all (fun index => driver.queries index && driver.maps index) &&
    enqueueBuffers driver count && driver.streams

def Driver.grants (driver : Driver) : Bool :=
  driver.opens && driver.formats && driver.allocates && driver.requests.any driver.completes

/-- `open_camera` maps a buffer and then fails. -/
def Driver.failsMapped (driver : Driver) : Bool :=
  driver.opens && driver.formats && driver.allocates &&
    match driver.requests with
    | none => false
    | some count =>
        decide (0 < count) && driver.queries 0 && driver.maps 0 && !driver.completes count

theorem mapBuffers_holds (driver : Driver) (todo index : Nat) (ledger : Ledger Resource)
    (held : List Resource) (holds : Holds Resource.id ledger held) :
    Holds Resource.id (mapBuffers driver todo index ledger).ledger
      ((mapBuffers driver todo index ledger).starts.map mapping ++ held) := by
  induction todo generalizing index ledger held with
  | zero => exact holds
  | succ todo ih =>
      simp only [mapBuffers]
      split
      · have mapped : Holds Resource.id (ledger.acquire (mapping ledger.fresh))
            (mapping ledger.fresh :: held) := holds.acquire rfl
        exact (ih (index + 1) _ _ mapped).perm List.perm_middle
      · exact holds

theorem mapBuffers_complete (driver : Driver) (todo index : Nat) (ledger : Ledger Resource) :
    (mapBuffers driver todo index ledger).complete =
      (List.range' index todo).all (fun i => driver.queries i && driver.maps i) := by
  induction todo generalizing index ledger with
  | zero => rfl
  | succ todo ih =>
      rw [List.range'_succ, List.all_cons, mapBuffers]
      cases driver.queries index && driver.maps index with
      | false => rfl
      | true => simpa using ih (index + 1) (ledger.acquire (mapping ledger.fresh))

theorem mapBuffers_length (driver : Driver) (todo index : Nat) (ledger : Ledger Resource)
    (complete : (mapBuffers driver todo index ledger).complete = true) :
    (mapBuffers driver todo index ledger).starts.length = todo := by
  induction todo generalizing index ledger with
  | zero => rfl
  | succ todo ih =>
      simp only [mapBuffers] at complete ⊢
      split at complete
      · next mapped =>
        rw [if_pos mapped, List.length_cons, ih (index + 1) _ complete]
      · cases complete

theorem mapBuffers_nothing (driver : Driver) (todo index : Nat) (ledger : Ledger Resource)
    (first : ¬ (0 < todo ∧ driver.queries index = true ∧ driver.maps index = true)) :
    (mapBuffers driver todo index ledger).starts = [] := by
  cases todo with
  | zero => rfl
  | succ todo =>
      simp only [mapBuffers]
      split
      · next mapped =>
        rw [Bool.and_eq_true] at mapped
        exact absurd ⟨Nat.succ_pos todo, mapped⟩ first
      · rfl

theorem Driver.failing_first (driver : Driver) (count : Nat) (opens : driver.opens = true)
    (formats : driver.formats = true) (requests : driver.requests = some count)
    (allocates : driver.allocates = true) (sound : driver.failsMapped = false)
    (failed : ¬ driver.completes count = true) :
    ¬ (0 < count ∧ driver.queries 0 = true ∧ driver.maps 0 = true) := by
  rintro ⟨positive, queried, mapped⟩
  simp [Driver.failsMapped, opens, formats, requests, allocates, positive, queried, mapped,
    failed] at sound

/-- The result of `open_camera` is all that is held. -/
def Holding (ledger : Ledger Resource) : Option Camera → Prop
  | none => Holds Resource.id ledger []
  | some camera => Holds Resource.id ledger (owned camera.fd camera.bufs) ∧
      camera.nBufs = camera.bufs.starts.length

theorem openCamera_holds (driver : Driver) (ledger : Ledger Resource)
    (holds : Holds Resource.id ledger []) (sound : driver.failsMapped = false) :
    Holding (openCamera driver ledger).2 (openCamera driver ledger).1 := by
  unfold openCamera
  cases opens : driver.opens with
  | false => exact holds
  | true =>
      have opened : Holds Resource.id (ledger.acquire (descriptor ledger.fresh))
          [descriptor ledger.fresh] := holds.acquire rfl
      cases formats : driver.formats with
      | false => exact opened.release
      | true =>
          cases requests : driver.requests with
          | none => exact opened.release
          | some count =>
              cases allocates : driver.allocates with
              | false => exact opened.release
              | true =>
                  have allocated : Holds Resource.id
                      ((ledger.acquire (descriptor ledger.fresh)).acquire
                        (array (ledger.acquire (descriptor ledger.fresh)).fresh))
                      [array (ledger.acquire (descriptor ledger.fresh)).fresh,
                        descriptor ledger.fresh] := opened.acquire rfl
                  have mapped := mapBuffers_holds driver count 0 _ _ allocated
                  simp only [Bool.not_true, Bool.false_eq_true, if_false]
                  split
                  · next done =>
                    simp only [Bool.and_eq_true] at done
                    exact ⟨mapped, (mapBuffers_length driver count 0 _ done.1.1).symm⟩
                  · next failed =>
                    rw [mapBuffers_complete] at failed
                    -- It may only fail at its first buffer, so nothing is mapped.
                    have first := driver.failing_first count opens formats requests allocates
                      sound failed
                    rw [mapBuffers_nothing driver count 0 _ first] at mapped
                    exact mapped.release.release

theorem openCamera_grants (driver : Driver) (ledger : Ledger Resource) :
    (openCamera driver ledger).1.isSome = driver.grants := by
  unfold openCamera Driver.grants
  cases driver.opens with
  | false => rfl
  | true =>
      cases driver.formats with
      | false => rfl
      | true =>
          cases driver.requests with
          | none => cases driver.allocates <;> rfl
          | some count =>
              cases driver.allocates with
              | false => rfl
              | true =>
                  simp only [mapBuffers_complete, Option.any_some, Driver.completes]
                  simp only [Bool.not_true, Bool.false_eq_true, if_false, Bool.true_and]
                  split
                  · next done => exact done.symm
                  · next failed => exact (Bool.eq_false_iff.mpr failed).symm

theorem closeCamera_holds (fd : Nat) (bufs : MmapBuffers) (nBufs : Nat)
    (ledger : Ledger Resource) (holds : Holds Resource.id ledger (owned fd bufs))
    (whole : nBufs = bufs.starts.length) :
    Holds Resource.id (closeCamera (some fd) (some bufs) nBufs ledger) [] := by
  have every : bufs.starts.take nBufs = bufs.starts := by
    rw [whole, List.take_length]
  simp only [closeCamera, every]
  exact (holds.releaseAll (bufs.starts.map mapping)).release.release

/-! ## Streaming -/

/-- Between the last call of `open_camera` and the first of `close_camera`. -/
def streams : Phase → Bool
  | .testing | .selecting | .dequeuing => true
  | .starting | .reloading | .reopening _ _ | .ended _ => false

def Streaming (state : State) : Prop :=
  state.camFd.isSome = true ∧ streams state.phase = true

instance (state : State) : Decidable (Streaming state) :=
  inferInstanceAs (Decidable (_ ∧ _))

theorem not_streaming_release (state : State) (phase : Phase)
    (quiet : streams phase = false) : ¬ Streaming (release state phase) := by
  rintro ⟨_, live⟩
  simp only [release, quiet] at live
  cases live

theorem not_streaming_finish (state : State) :
    ¬ Streaming (finish state) := by
  unfold finish
  split
  · exact not_streaming_release state _ rfl
  · exact fun streaming => nomatch streaming.2

theorem streaming_before (state : State) (label : Label)
    (next : State) (moved : step state label = some next)
    (other : ∀ driver, label ≠ .opening driver) (streaming : Streaming next) :
    Streaming state := by
  cases step_moves state label next moved with
  | opening driver phase => exact absurd rfl (other driver)
  | test running reload phase =>
      cases running with
      | false => exact absurd streaming (not_streaming_finish state)
      | true =>
          cases reload with
          | false => exact ⟨streaming.1, by rw [phase]; rfl⟩
          | true => exact absurd streaming (not_streaming_release state _ rfl)
  | select outcome phase =>
      have live : streams state.phase = true := by rw [phase]; rfl
      revert streaming
      cases (if state.camFd.isSome = true then outcome else Selected.timeout) with
      | timeout =>
          simp only [afterSelect]
          split
          · exact fun streaming => absurd streaming (not_streaming_release _ _ rfl)
          · exact fun streaming => ⟨streaming.1, live⟩
      | _ => exact fun streaming => ⟨streaming.1, live⟩
  | dequeue outcome phase =>
      have live : streams state.phase = true := by rw [phase]; rfl
      cases outcome with
      | failed => exact absurd streaming (not_streaming_release state _ rfl)
      | _ => exact ⟨streaming.1, live⟩

theorem assign_camFd (state : State) (opened : Option Camera × Ledger Resource) :
    (assign state opened).camFd = opened.1.map Camera.fd := by
  unfold assign
  cases opened.1 <;> rfl

theorem finish_camFd (state : State) : (finish state).camFd = state.camFd := by
  unfold finish
  split <;> rfl

theorem afterOpen_camFd (state : State) (phase : Phase) :
    (afterOpen state phase).camFd = state.camFd := by
  unfold afterOpen
  split
  · split <;> rfl
  · split
    · rfl
    · exact finish_camFd state
  · unfold reopened
    split
    · rfl
    · simp only
      split
      · exact finish_camFd _
      · rfl

/-- A stream that an open leaves running is the one it has started. -/
theorem streaming_opened (state : State) (driver : Driver) (next : State)
    (moved : step state (.opening driver) = some next) (streaming : Streaming next) :
    (openCamera driver state.ledger).1.isSome = true := by
  have same : next.camFd = (openCamera driver state.ledger).1.map Camera.fd := by
    cases step_moves state _ next moved
    rw [afterOpen_camFd, assign_camFd]
  simpa [same] using streaming.1

theorem finish_phase (state : State) : (finish state).phase = .ended 0 := by
  unfold finish
  split <;> rfl

theorem afterOpen_phase (state : State) (phase : Phase) :
    (afterOpen state phase).phase ≠ .dequeuing := by
  have finished : ∀ other : State, (finish other).phase ≠ .dequeuing := fun other => by
    rw [finish_phase]
    nofun
  unfold afterOpen
  split
  · split <;> nofun
  · split
    · nofun
    · exact finished state
  · unfold reopened
    split
    · nofun
    · simp only
      split
      · exact finished _
      · nofun

theorem dequeuing_open (state : State) (label : Label) (next : State)
    (moved : step state label = some next) (ready : next.phase = .dequeuing) :
    next.camFd.isSome = true := by
  cases step_moves state label next moved with
  | opening driver phase => exact absurd ready (afterOpen_phase _ _)
  | test running reload phase =>
      cases running with
      | false =>
          have ended := finish_phase state
          exact nomatch ended.symm.trans ready
      | true => cases reload <;> cases ready
  | select outcome phase =>
      revert ready
      split
      · next opened =>
        cases outcome with
        | timeout =>
            simp only [afterSelect]
            split <;> nofun
        | ready => exact fun _ => opened
        | _ => nofun
      · simp only [afterSelect]
        split <;> nofun
  | dequeue outcome phase => cases outcome <;> cases ready

end SensorNode.CaptureLoop
