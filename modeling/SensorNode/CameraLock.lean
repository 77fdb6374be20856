import SensorNode.CaptureLoop

/-!
The two camera daemons on one V4L2 device: `capture_image` of image-uploader, one
step for each call it makes on the lock file and for the start and the end of
`v4l2-ctl`, interleaved with the capture loop of camera-stream. The lock file is
taken by image-uploader only.
-/

namespace SensorNode.CameraLock

open StepSystem

/-- Where `capture_image` is; `capturing` is inside `system`. -/
inductive Capture where
  | idle
  | opening
  | locking
  | locked
  | capturing
  | unlocking
  deriving DecidableEq

structure State where
  stream : CaptureLoop.State
  uploader : Capture
  lockTaken : Bool

def initial : State := ⟨CaptureLoop.initial, .idle, false⟩

def Starts (state : State) : Prop := state = initial

inductive Label where
  | stream (label : CaptureLoop.Label)
  | uploader (succeeds : Bool)

def captureStep (state : State) (succeeds : Bool) : Option State :=
  match state.uploader with
  | .idle => some { state with uploader := .opening }
  | .opening => some { state with uploader := if succeeds then .locking else .idle }
  | .locking =>
      if !succeeds then some { state with uploader := .idle }
      else if state.lockTaken then none
      else some { state with uploader := .locked, lockTaken := true }
  | .locked => some { state with uploader := .capturing }
  -- Whatever the exit status of `v4l2-ctl` is, the lock is given back.
  | .capturing => some { state with uploader := .unlocking }
  | .unlocking => some { state with uploader := .idle, lockTaken := false }

def step (state : State) : Label → Option State
  | .stream label => (CaptureLoop.step state.stream label).map fun next =>
      { state with stream := next }
  | .uploader succeeds => captureStep state succeeds

def Exclusive (state : State) : Prop :=
  ¬ (state.uploader = .capturing ∧ CaptureLoop.Streaming state.stream)

/-- The camera is opened only while the lock is free, and the lock is granted only while
camera-stream does not stream. An open that fails is free to happen. -/
def HonoursLock (state : State) : Label → Prop
  | .stream (.opening driver) => driver.grants = true → state.lockTaken = false
  | .uploader true => state.uploader = .locking → ¬ CaptureLoop.Streaming state.stream
  | _ => True

instance (state : State) (label : Label) : Decidable (HonoursLock state label) := by
  unfold HonoursLock
  split <;> infer_instance

/-! ## The lock -/

/-- The lock is taken exactly inside the locked part of `capture_image`. -/
def Locked (state : State) : Prop :=
  state.lockTaken = true ↔
    state.uploader = .locked ∨ state.uploader = .capturing ∨ state.uploader = .unlocking

theorem locked_step (state : State) (label : Label) (next : State) (locked : Locked state)
    (moved : step state label = some next) : Locked next := by
  cases label with
  | stream label =>
      simp only [step, Option.map_eq_some_iff] at moved
      obtain ⟨stream, _, rfl⟩ := moved
      exact locked
  | uploader succeeds =>
      unfold Locked at *
      cases phase : state.uploader with
      | locking =>
          simp only [step, captureStep, phase] at moved
          split at moved
          · cases moved
            simpa [phase] using locked
          · split at moved
            · cases moved
            · cases moved
              simp
      | opening =>
          simp only [step, captureStep, phase, Option.some.injEq] at moved
          subst moved
          cases succeeds <;> simpa [phase] using locked
      | unlocking =>
          simp only [step, captureStep, phase, Option.some.injEq] at moved
          subst moved
          simp
      | _ =>
          simp only [step, captureStep, phase, Option.some.injEq] at moved
          subst moved
          simpa [phase] using locked

theorem taken_before (state next : State) (succeeds : Bool)
    (moved : captureStep state succeeds = some next) :
    next.stream = state.stream ∧
      (next.lockTaken = true →
        state.lockTaken = true ∨ (state.uploader = .locking ∧ succeeds = true)) := by
  cases phase : state.uploader with
  | locking =>
      simp only [captureStep, phase] at moved
      cases succeeds with
      | false =>
          cases moved
          exact ⟨rfl, Or.inl⟩
      | true =>
          simp only [Bool.not_true, Bool.false_eq_true, if_false] at moved
          split at moved
          · cases moved
          · cases moved
            exact ⟨rfl, fun _ => .inr ⟨rfl, rfl⟩⟩
  | unlocking =>
      simp only [captureStep, phase, Option.some.injEq] at moved
      subst moved
      exact ⟨rfl, fun taken => nomatch taken⟩
  | _ =>
      simp only [captureStep, phase, Option.some.injEq] at moved
      subst moved
      exact ⟨rfl, Or.inl⟩

/-! ## The device -/

/-- While the lock is taken, camera-stream does not stream. -/
def Guarded (state : State) : Prop :=
  state.lockTaken = true → ¬ CaptureLoop.Streaming state.stream

theorem guarded_step (state : State) (label : Label) (next : State) (guarded : Guarded state)
    (honours : HonoursLock state label) (moved : step state label = some next) :
    Guarded next := by
  intro taken streaming
  cases label with
  | stream label =>
      simp only [step, Option.map_eq_some_iff] at moved
      obtain ⟨stream, went, rfl⟩ := moved
      by_cases opening : ∃ driver, label = .opening driver
      · obtain ⟨driver, rfl⟩ := opening
        have grants : driver.grants = true := by
          rw [← CaptureLoop.openCamera_grants driver state.stream.ledger]
          exact CaptureLoop.streaming_opened state.stream driver stream went streaming
        exact Bool.false_ne_true ((honours grants).symm.trans taken)
      · have before := CaptureLoop.streaming_before state.stream label stream went
          (fun driver same => opening ⟨driver, same⟩) streaming
        exact guarded taken before
  | uploader succeeds =>
      obtain ⟨same, before⟩ := taken_before state next succeeds moved
      rw [same] at streaming
      rcases before taken with held | ⟨waits, rfl⟩
      · exact guarded held streaming
      · exact honours waits streaming

/-- In a run where both daemons honour the lock, they exclude each other. -/
theorem cameras_exclusive (state : State)
    (reached : ReachableWithin step Starts HonoursLock state) : Exclusive state := by
  have kept : Locked state ∧ Guarded state := by
    apply reachable_within_invariant step Starts (fun state => Locked state ∧ Guarded state)
      HonoursLock _ _ state reached
    · rintro _ rfl
      exact ⟨by simp [Locked, initial], fun taken => nomatch taken⟩
    · intro state label next both honours moved
      exact ⟨locked_step state label next both.1 moved,
        guarded_step state label next both.2 honours moved⟩
  rintro ⟨capturing, streaming⟩
  have taken : state.lockTaken = true := kept.1.mpr (.inr (.inl capturing))
  exact kept.2 taken streaming

def granting : CaptureLoop.Driver :=
  ⟨true, true, some 2, true, fun _ => true, fun _ => true, fun _ => true, true⟩

def handedOver : List Label :=
  [.stream (.opening granting), .stream (.test false false)] ++
    List.replicate 4 (.uploader true)

theorem cameras_exclusive_handedOver :
    ∃ state, exec step initial handedOver = some state ∧ state.uploader = .capturing ∧
      Exclusive state :=
  ⟨_, rfl, rfl, cameras_exclusive _ ⟨initial, handedOver, rfl, by decide, rfl⟩⟩

/-- `capture_image` gets its lock and captures while camera-stream streams. -/
theorem cameras_overlap : ¬ ∀ state, Reachable step Starts state → Exclusive state := by
  intro always
  apply always _ ⟨initial,
    .stream (.opening granting) :: List.replicate 4 (.uploader true), rfl, rfl⟩
  exact ⟨rfl, rfl, rfl⟩

end SensorNode.CameraLock
