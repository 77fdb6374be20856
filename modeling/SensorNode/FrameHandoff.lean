import SensorNode.StepSystem

/-!
The two threads of camera-stream around `frame_buf`. `main` captures and
publishes frames, `push_thread` waits for one, copies it and posts it; both run
one step at a time, a step being one access to shared memory or one call of a
pthread function. A condition wait wakes for a signal or broadcast made while it
sleeps, or spuriously. `Data` stands for the contents of a JPEG buffer.
-/

namespace SensorNode.FrameHandoff

open StepSystem

universe u
variable {Data : Type u}

/-- What one pass of the capture loop comes to before it may publish. -/
inductive Captured (Data : Type u) where
  | nothing
  | frame (data : Data) (size : Nat)
  | broken

/-- The next step of `main`. -/
inductive Main (Data : Type u) where
  | looping
  | capturing
  | locking (data : Data) (size : Nat)
  | storing (data : Data) (size : Nat)
  | sizing (size : Nat)
  | raising
  | signalling
  | unlocking
  | stopping
  | broadcasting
  | joining
  | ended
  deriving DecidableEq

/-- The next step of `push_thread`; `entering` has tested `running` and is about
to call `pthread_cond_wait`. -/
inductive Push (Data : Type u) where
  | looping
  | locking
  | checking
  | entering
  | asleep
  | waking
  | deciding
  | leaving
  | sizing
  | copying (size : Nat)
  | clearing (copy : Option (Data × Nat))
  | unlocking (copy : Option (Data × Nat))
  | posting (data : Data) (size : Nat)
  | done
  deriving DecidableEq

inductive Owner where
  | main
  | push
  deriving DecidableEq

structure State (Data : Type u) where
  running : Bool
  lock : Option Owner
  data : Option Data
  size : Nat
  ready : Bool
  main : Main Data
  push : Push Data
  deriving DecidableEq

def initial : State Data := ⟨true, none, none, 0, false, .looping, .looping⟩

inductive Label (Data : Type u) where
  | terminate
  | spurious
  | main (captured : Captured Data)
  | push (allocated : Bool)

def Push.wake : Push Data → Push Data
  | .asleep => .waking
  | other => other

def Captured.next : Captured Data → Main Data
  | .nothing => .looping
  | .frame data size => .locking data size
  | .broken => .stopping

/-- Without memory for the copy the frame is dropped. -/
def Push.resume : Option (Data × Nat) → Push Data
  | none => .looping
  | some copy => .posting copy.1 copy.2

def mainStep (state : State Data) (captured : Captured Data) : Option (State Data) :=
  match state.main with
  | .looping => some { state with main := if state.running then .capturing else .stopping }
  | .capturing => some { state with main := captured.next }
  | .locking data size =>
      if state.lock = none then
        some { state with lock := some .main, main := .storing data size }
      else none
  | .storing data size => some { state with data := some data, main := .sizing size }
  | .sizing size => some { state with size := size, main := .raising }
  | .raising => some { state with ready := true, main := .signalling }
  | .signalling => some { state with push := state.push.wake, main := .unlocking }
  | .unlocking => some { state with lock := none, main := .looping }
  -- From here on `main` does not take the lock.
  | .stopping => some { state with running := false, main := .broadcasting }
  | .broadcasting => some { state with push := state.push.wake, main := .joining }
  | .joining =>
      match state.push with
      | .done => some { state with main := .ended }
      | _ => none
  | .ended => none

def pushStep (state : State Data) (allocated : Bool) : Option (State Data) :=
  match state.push with
  | .looping => some { state with push := if state.running then .locking else .done }
  | .locking | .waking =>
      if state.lock = none then some { state with lock := some .push, push := .checking }
      else none
  -- The test and the wait are two steps, though both are made under the lock.
  | .checking =>
      some { state with push := if !state.ready && state.running then .entering else .deciding }
  | .entering => some { state with lock := none, push := .asleep }
  | .asleep => none
  | .deciding => some { state with push := if state.running then .sizing else .leaving }
  | .leaving => some { state with lock := none, push := .done }
  | .sizing => some { state with push := .copying state.size }
  | .copying size =>
      let copy := if allocated then state.data.map fun data => (data, size) else none
      some { state with push := .clearing copy }
  | .clearing copy => some { state with ready := false, push := .unlocking copy }
  | .unlocking copy => some { state with lock := none, push := .resume copy }
  | .posting _ _ => some { state with push := .looping }
  | .done => none

def step (state : State Data) : Label Data → Option (State Data)
  | .terminate => some { state with running := false }
  | .spurious =>
      match state.push with
      | .asleep => some { state with push := .waking }
      | _ => none
  | .main captured => mainStep state captured
  | .push allocated => pushStep state allocated

def Starts (state : State Data) : Prop := state = initial

/-! ## What a step finds and leaves -/

inductive MainMoves (state : State Data) (captured : Captured Data) : State Data → Prop where
  | looping (phase : state.main = .looping) : MainMoves state captured
      { state with main := if state.running then .capturing else .stopping }
  | capturing (phase : state.main = .capturing) : MainMoves state captured
      { state with main := captured.next }
  | locking (data : Data) (size : Nat) (phase : state.main = .locking data size)
      (free : state.lock = none) : MainMoves state captured
      { state with lock := some .main, main := .storing data size }
  | storing (data : Data) (size : Nat) (phase : state.main = .storing data size) :
      MainMoves state captured { state with data := some data, main := .sizing size }
  | sizing (size : Nat) (phase : state.main = .sizing size) : MainMoves state captured
      { state with size := size, main := .raising }
  | raising (phase : state.main = .raising) : MainMoves state captured
      { state with ready := true, main := .signalling }
  | signalling (phase : state.main = .signalling) : MainMoves state captured
      { state with push := state.push.wake, main := .unlocking }
  | unlocking (phase : state.main = .unlocking) : MainMoves state captured
      { state with lock := none, main := .looping }
  | stopping (phase : state.main = .stopping) : MainMoves state captured
      { state with running := false, main := .broadcasting }
  | broadcasting (phase : state.main = .broadcasting) : MainMoves state captured
      { state with push := state.push.wake, main := .joining }
  | joining (phase : state.main = .joining) (done : state.push = .done) :
      MainMoves state captured { state with main := .ended }

theorem mainStep_moves (state next : State Data) (captured : Captured Data)
    (moved : mainStep state captured = some next) : MainMoves state captured next := by
  cases phase : state.main with
  | looping =>
      simp only [mainStep, phase, Option.some.injEq] at moved
      exact moved ▸ .looping phase
  | capturing =>
      simp only [mainStep, phase, Option.some.injEq] at moved
      exact moved ▸ .capturing phase
  | locking data size =>
      simp only [mainStep, phase] at moved
      split at moved
      · next free => exact Option.some.inj moved ▸ .locking data size phase free
      · cases moved
  | storing data size =>
      simp only [mainStep, phase, Option.some.injEq] at moved
      exact moved ▸ .storing data size phase
  | sizing size =>
      simp only [mainStep, phase, Option.some.injEq] at moved
      exact moved ▸ .sizing size phase
  | raising =>
      simp only [mainStep, phase, Option.some.injEq] at moved
      exact moved ▸ .raising phase
  | signalling =>
      simp only [mainStep, phase, Option.some.injEq] at moved
      exact moved ▸ .signalling phase
  | unlocking =>
      simp only [mainStep, phase, Option.some.injEq] at moved
      exact moved ▸ .unlocking phase
  | stopping =>
      simp only [mainStep, phase, Option.some.injEq] at moved
      exact moved ▸ .stopping phase
  | broadcasting =>
      simp only [mainStep, phase, Option.some.injEq] at moved
      exact moved ▸ .broadcasting phase
  | joining =>
      simp only [mainStep, phase] at moved
      split at moved
      · next done => exact Option.some.inj moved ▸ .joining phase done
      · cases moved
  | ended =>
      simp only [mainStep, phase] at moved
      cases moved

inductive PushMoves (state : State Data) (allocated : Bool) : State Data → Prop where
  | looping (phase : state.push = .looping) : PushMoves state allocated
      { state with push := if state.running then .locking else .done }
  | locking (phase : state.push = .locking ∨ state.push = .waking) (free : state.lock = none) :
      PushMoves state allocated { state with lock := some .push, push := .checking }
  | checking (phase : state.push = .checking) : PushMoves state allocated
      { state with push := if !state.ready && state.running then .entering else .deciding }
  | entering (phase : state.push = .entering) : PushMoves state allocated
      { state with lock := none, push := .asleep }
  | deciding (phase : state.push = .deciding) : PushMoves state allocated
      { state with push := if state.running then .sizing else .leaving }
  | leaving (phase : state.push = .leaving) : PushMoves state allocated
      { state with lock := none, push := .done }
  | sizing (phase : state.push = .sizing) : PushMoves state allocated
      { state with push := .copying state.size }
  | copying (size : Nat) (phase : state.push = .copying size) : PushMoves state allocated
      { state with
        push := .clearing (if allocated then state.data.map fun data => (data, size) else none) }
  | clearing (copy : Option (Data × Nat)) (phase : state.push = .clearing copy) :
      PushMoves state allocated { state with ready := false, push := .unlocking copy }
  | unlocking (copy : Option (Data × Nat)) (phase : state.push = .unlocking copy) :
      PushMoves state allocated { state with lock := none, push := .resume copy }
  | posting (data : Data) (size : Nat) (phase : state.push = .posting data size) :
      PushMoves state allocated { state with push := .looping }

theorem pushStep_moves (state next : State Data) (allocated : Bool)
    (moved : pushStep state allocated = some next) : PushMoves state allocated next := by
  cases phase : state.push with
  | looping =>
      simp only [pushStep, phase, Option.some.injEq] at moved
      exact moved ▸ .looping phase
  | locking =>
      simp only [pushStep, phase] at moved
      split at moved
      · next free => exact Option.some.inj moved ▸ .locking (.inl phase) free
      · cases moved
  | waking =>
      simp only [pushStep, phase] at moved
      split at moved
      · next free => exact Option.some.inj moved ▸ .locking (.inr phase) free
      · cases moved
  | checking =>
      simp only [pushStep, phase, Option.some.injEq] at moved
      exact moved ▸ .checking phase
  | entering =>
      simp only [pushStep, phase, Option.some.injEq] at moved
      exact moved ▸ .entering phase
  | deciding =>
      simp only [pushStep, phase, Option.some.injEq] at moved
      exact moved ▸ .deciding phase
  | leaving =>
      simp only [pushStep, phase, Option.some.injEq] at moved
      exact moved ▸ .leaving phase
  | sizing =>
      simp only [pushStep, phase, Option.some.injEq] at moved
      exact moved ▸ .sizing phase
  | copying size =>
      simp only [pushStep, phase, Option.some.injEq] at moved
      exact moved ▸ .copying size phase
  | clearing copy =>
      simp only [pushStep, phase, Option.some.injEq] at moved
      exact moved ▸ .clearing copy phase
  | unlocking copy =>
      simp only [pushStep, phase, Option.some.injEq] at moved
      exact moved ▸ .unlocking copy phase
  | posting data size =>
      simp only [pushStep, phase, Option.some.injEq] at moved
      exact moved ▸ .posting data size phase
  | asleep | done =>
      simp only [pushStep, phase] at moved
      cases moved

/-! ## The join -/

/-- The steps of the process itself: the condition wait may wake spuriously, but
nothing in the process makes it. -/
def Label.own : Label Data → Prop
  | .spurious => False
  | _ => True

/-- `main` waits for `push_thread`, which is asleep in the condition wait whatever
the process still does. -/
structure Deadlocked (state : State Data) : Prop where
  stopped : state.running = false
  joining : state.main = .joining
  asleep : Stuck step Label.own (fun later => later.push = .asleep) state

/-- The broadcast is not made between the test of `running` and the wait. -/
def WaitNotMissed (state : State Data) : Label Data → Prop
  | .main _ => state.main = .broadcasting → state.push ≠ .entering
  | _ => True

instance [DecidableEq Data] (state : State Data) (label : Label Data) :
    Decidable (WaitNotMissed state label) := by
  unfold WaitNotMissed
  split <;> infer_instance

/-- `main` has set `running` to 0 and does not set it again. -/
def Main.stops : Main Data → Bool
  | .broadcasting | .joining | .ended => true
  | _ => false

def Main.joins : Main Data → Bool
  | .joining | .ended => true
  | _ => false

/-- From the broadcast on, `push_thread` neither sleeps nor is about to. -/
structure Stopping (state : State Data) : Prop where
  stopped : state.main.stops = true → state.running = false
  awake : state.main.joins = true → state.push ≠ .entering ∧ state.push ≠ .asleep

theorem Main.stops_of_joins (main : Main Data) (joins : main.joins = true) : main.stops = true := by
  cases main <;> first | rfl | cases joins

theorem wake_ne_asleep (push : Push Data) : push.wake ≠ .asleep := by
  cases push <;> nofun

theorem wake_entering (push : Push Data) (other : push ≠ .entering) : push.wake ≠ .entering := by
  cases push with
  | entering => exact absurd rfl other
  | _ => nofun

theorem Captured.next_stops (captured : Captured Data) : captured.next.stops = false := by
  cases captured <;> rfl

theorem stopping_before (state : State Data) (before : state.main.stops = false) :
    Stopping state := by
  refine ⟨fun stops => ?_, fun joins => ?_⟩
  · rw [before] at stops
    cases stops
  · rw [Main.stops_of_joins state.main joins] at before
    cases before

theorem stopping_main (state next : State Data) (captured : Captured Data)
    (stopping : Stopping state)
    (allowed : state.main = .broadcasting → state.push ≠ .entering)
    (moved : mainStep state captured = some next) : Stopping next := by
  cases mainStep_moves state next captured moved with
  | looping phase =>
      apply stopping_before
      cases state.running <;> rfl
  | capturing phase => exact stopping_before _ captured.next_stops
  | stopping phase => exact ⟨fun _ => rfl, nofun⟩
  | broadcasting phase =>
      have stopped := stopping.stopped (by rw [phase]; rfl)
      exact ⟨fun _ => stopped, fun _ =>
        ⟨wake_entering state.push (allowed phase), wake_ne_asleep state.push⟩⟩
  | joining phase done =>
      have stopped := stopping.stopped (by rw [phase]; rfl)
      have awake := stopping.awake (by rw [phase]; rfl)
      exact ⟨fun _ => stopped, fun _ => awake⟩
  | _ => exact stopping_before _ rfl

theorem resume_awake (copy : Option (Data × Nat)) :
    Push.resume copy ≠ .entering ∧ Push.resume copy ≠ .asleep := by
  cases copy <;> exact ⟨nofun, nofun⟩

theorem push_awake (state next : State Data) (allocated : Bool) (stopped : state.running = false)
    (awake : state.push ≠ .entering ∧ state.push ≠ .asleep)
    (moved : pushStep state allocated = some next) :
    next.push ≠ .entering ∧ next.push ≠ .asleep := by
  cases pushStep_moves state next allocated moved with
  | entering phase => exact absurd phase awake.1
  | unlocking copy phase => exact resume_awake copy
  | looping phase | checking phase | deciding phase =>
      rw [stopped]
      simp
  | _ => exact ⟨nofun, nofun⟩

theorem pushStep_main (state next : State Data) (allocated : Bool)
    (moved : pushStep state allocated = some next) :
    next.main = state.main ∧ next.running = state.running := by
  cases pushStep_moves state next allocated moved <;> exact ⟨rfl, rfl⟩

theorem stopping_step (state : State Data) (label : Label Data) (next : State Data)
    (stopping : Stopping state) (allowed : WaitNotMissed state label)
    (moved : step state label = some next) : Stopping next := by
  cases label with
  | terminate =>
      cases moved
      exact ⟨fun _ => rfl, stopping.awake⟩
  | spurious =>
      simp only [step] at moved
      split at moved
      · next asleep =>
        cases moved
        exact ⟨stopping.stopped, fun joins => absurd asleep (stopping.awake joins).2⟩
      · cases moved
  | main captured => exact stopping_main state next captured stopping allowed moved
  | push allocated =>
      obtain ⟨main, running⟩ := pushStep_main state next allocated moved
      refine ⟨fun stops => ?_, fun joins => ?_⟩
      · rw [running]
        exact stopping.stopped (main ▸ stops)
      · rw [main] at joins
        have stopped := stopping.stopped (state.main.stops_of_joins joins)
        exact push_awake state next allocated stopped (stopping.awake joins) moved

theorem push_joined (state : State Data)
    (reached : ReachableWithin step Starts WaitNotMissed state) : ¬ Deadlocked state := by
  intro deadlocked
  have stopping : Stopping state := by
    apply reachable_within_invariant step Starts Stopping WaitNotMissed _ stopping_step state
      reached
    rintro _ rfl
    exact stopping_before initial rfl
  exact (stopping.awake (by rw [deadlocked.joining]; rfl)).2 deadlocked.asleep.now

/-- A `push_thread` asleep when `main` joins it is never woken by the process. -/
theorem deadlocked_asleep (state : State Data) (stopped : state.running = false)
    (joining : state.main = .joining) (asleep : state.push = .asleep) : Deadlocked state := by
  refine ⟨stopped, joining, ?_⟩
  have stays := stuck_of_preserved step Label.own
    (fun later => later.main = .joining ∧ later.push = .asleep) ?_ state ⟨joining, asleep⟩
  · exact fun labels after owned ran => (stays labels after owned ran).2
  · rintro before label next ⟨joins, sleeps⟩ owned moved
    cases label with
    | terminate =>
        cases moved
        exact ⟨joins, sleeps⟩
    | spurious => exact owned.elim
    | main captured =>
        simp only [step, mainStep, joins, sleeps] at moved
        cases moved
    | push allocated =>
        simp only [step, pushStep, sleeps] at moved
        cases moved

end SensorNode.FrameHandoff
