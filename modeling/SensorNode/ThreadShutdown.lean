import SensorNode.FrameHandoff
import SensorNode.ReadingStore

/-!
Shutdown of data-collector and of camera-stream. In data-collector `main` joins
`socket_listener` first, which tests `running` only between two datagrams; the
termination signal restarts the `recvfrom` it may interrupt. The threads are
modelled as far as they synchronise: the flag, the store's lock, the socket's
queue and the joins.
-/

namespace SensorNode.ThreadShutdown

open LineStream ReadingStore StepSystem

universe u

inductive Listener where
  | starting
  | testing
  | receiving
  | locking
  | storing
  | done
  deriving DecidableEq

/-- `working` stands between the critical sections of one send cycle. -/
inductive Sender where
  | testing
  | sleeping
  | working
  | holding
  | done
  deriving DecidableEq

inductive Main where
  | joiningListener
  | joiningSender
  | ended
  deriving DecidableEq

inductive Owner where
  | listener
  | sender
  deriving DecidableEq

structure State where
  running : Bool
  lock : Option Owner
  /-- The datagrams queued at the socket. -/
  datagrams : List Bytes
  listener : Listener
  sender : Sender
  main : Main
  deriving DecidableEq

def initial : State := ⟨true, none, [], .starting, .testing, .joiningListener⟩

inductive Label where
  | terminate
  | datagram (text : Bytes)
  | listener (bound : Bool)
  | sender (again : Bool)
  | main

def listenerStep (state : State) (bound : Bool) : Option State :=
  match state.listener with
  | .starting => some { state with listener := if bound then .testing else .done }
  | .testing => some { state with listener := if state.running then .receiving else .done }
  | .receiving =>
      match state.datagrams with
      | [] => none
      | text :: rest =>
          let next := if (parseDatagram text).isSome then Listener.locking else .testing
          some { state with datagrams := rest, listener := next }
  | .locking =>
      if state.lock = none then some { state with lock := some .listener, listener := .storing }
      else none
  | .storing => some { state with lock := none, listener := .testing }
  | .done => none

def senderStep (state : State) (again : Bool) : Option State :=
  match state.sender with
  | .testing => some { state with sender := if state.running then .sleeping else .done }
  | .sleeping => some { state with sender := .working }
  | .working =>
      if !again then some { state with sender := .testing }
      else if state.lock = none then
        some { state with lock := some .sender, sender := .holding }
      else none
  | .holding => some { state with lock := none, sender := .working }
  | .done => none

def mainStep (state : State) : Option State :=
  match state.main with
  | .joiningListener =>
      if state.listener = .done then some { state with main := .joiningSender } else none
  | .joiningSender => if state.sender = .done then some { state with main := .ended } else none
  | .ended => none

def step (state : State) : Label → Option State
  | .terminate => some { state with running := false }
  | .datagram text =>
      -- Before `bind` there is no socket to send to.
      if state.listener = .starting then none
      else some { state with datagrams := state.datagrams ++ [text] }
  | .listener bound => listenerStep state bound
  | .sender again => senderStep state again
  | .main => mainStep state

def Starts (state : State) : Prop := state = initial

/-- The steps of the process itself; datagrams come from other processes. -/
def Label.own : Label → Prop
  | .datagram _ => False
  | _ => True

def Blocked (state : State) : Prop := state.listener = .receiving ∧ state.datagrams = []

instance (state : State) : Decidable (Blocked state) :=
  inferInstanceAs (Decidable (_ ∧ _))

/-- `main` waits for `socket_listener`, which is blocked in `recvfrom` whatever
the process still does. -/
structure Deadlocked (state : State) : Prop where
  stopped : state.running = false
  joining : state.main = .joiningListener
  blocked : Stuck step Label.own Blocked state

/-- The termination signal does not find the listener in `recvfrom` with an empty
queue. -/
def Interrupts (state : State) : Label → Prop
  | .terminate => ¬ Blocked state
  | _ => True

instance (state : State) (label : Label) : Decidable (Interrupts state label) := by
  unfold Interrupts
  split <;> infer_instance

/-- Once `running` is 0 the listener has a datagram to receive. -/
def Wakes (state : State) : Prop := state.running = false → ¬ Blocked state

/-- The listener enters `recvfrom` only with `running` 1. -/
theorem wakes_listener (state next : State) (bound : Bool)
    (moved : listenerStep state bound = some next) : Wakes next := by
  cases phase : state.listener with
  | starting =>
      simp only [listenerStep, phase, Option.some.injEq] at moved
      subst moved
      cases bound <;> exact fun _ blocked => nomatch blocked.1
  | testing =>
      simp only [listenerStep, phase, Option.some.injEq] at moved
      subst moved
      intro stopped blocked
      -- The only way into `recvfrom`, and it is taken with `running` 1.
      simp only at stopped
      rw [Blocked, stopped] at blocked
      exact nomatch blocked.1
  | receiving =>
      simp only [listenerStep, phase] at moved
      split at moved
      · cases moved
      · cases moved
        intro _ blocked
        simp only [Blocked] at blocked
        split at blocked <;> exact nomatch blocked.1
  | locking =>
      simp only [listenerStep, phase] at moved
      split at moved
      · cases moved
        exact fun _ blocked => nomatch blocked.1
      · cases moved
  | storing =>
      simp only [listenerStep, phase, Option.some.injEq] at moved
      subst moved
      exact fun _ blocked => nomatch blocked.1
  | done =>
      simp only [listenerStep, phase] at moved
      cases moved

theorem senderStep_frame (state next : State) (again : Bool)
    (moved : senderStep state again = some next) :
    next.running = state.running ∧ next.main = state.main ∧
      next.listener = state.listener ∧ next.datagrams = state.datagrams := by
  unfold senderStep at moved
  split at moved <;> try split at moved
  all_goals try split at moved
  all_goals cases moved
  all_goals exact ⟨rfl, rfl, rfl, rfl⟩

theorem mainStep_frame (state next : State) (moved : mainStep state = some next) :
    next.running = state.running ∧ next.listener = state.listener ∧
      next.datagrams = state.datagrams := by
  unfold mainStep at moved
  split at moved <;> try split at moved
  all_goals cases moved
  all_goals exact ⟨rfl, rfl, rfl⟩

theorem wakes_step (state : State) (label : Label) (next : State) (wakes : Wakes state)
    (allowed : Interrupts state label) (moved : step state label = some next) : Wakes next := by
  cases label with
  | terminate =>
      cases moved
      exact fun _ => allowed
  | datagram text =>
      simp only [step] at moved
      split at moved
      · cases moved
      · cases moved
        exact fun _ blocked => absurd blocked.2 (by simp)
  | listener bound => exact wakes_listener state next bound moved
  | sender again =>
      obtain ⟨running, _, listener, datagrams⟩ := senderStep_frame state next again moved
      simpa only [Wakes, Blocked, running, listener, datagrams] using wakes
  | main =>
      obtain ⟨running, listener, datagrams⟩ := mainStep_frame state next moved
      simpa only [Wakes, Blocked, running, listener, datagrams] using wakes

theorem listener_joined (state : State)
    (reached : ReachableWithin step Starts Interrupts state) : ¬ Deadlocked state := by
  intro deadlocked
  have wakes : Wakes state := by
    apply reachable_within_invariant step Starts Wakes Interrupts _ wakes_step state reached
    rintro _ rfl
    nofun
  exact wakes deadlocked.stopped deadlocked.blocked.now

/-- A listener blocked when `main` joins it is never woken by the process. -/
theorem deadlocked_blocked (state : State) (stopped : state.running = false)
    (joining : state.main = .joiningListener) (blocked : Blocked state) : Deadlocked state := by
  refine ⟨stopped, joining, stuck_of_preserved step Label.own Blocked ?_ state blocked⟩
  rintro before label next ⟨receiving, empty⟩ owned moved
  cases label with
  | terminate =>
      cases moved
      exact ⟨receiving, empty⟩
  | datagram text => exact owned.elim
  | listener bound =>
      simp only [step, listenerStep, receiving, empty] at moved
      cases moved
  | sender again =>
      obtain ⟨_, _, listener, datagrams⟩ := senderStep_frame before next again moved
      exact ⟨listener.trans receiving, datagrams.trans empty⟩
  | main =>
      obtain ⟨_, listener, datagrams⟩ := mainStep_frame before next moved
      exact ⟨listener.trans receiving, datagrams.trans empty⟩

/-- Shutdown deadlocks in neither daemon, if camera-stream does not broadcast
between the test and the wait of `push_thread` and data-collector is not
interrupted in a `recvfrom` with an empty queue. -/
theorem shutdown_joins (Data : Type u) :
    (∀ state : FrameHandoff.State Data,
      ReachableWithin FrameHandoff.step FrameHandoff.Starts FrameHandoff.WaitNotMissed state →
        ¬ FrameHandoff.Deadlocked state) ∧
      ∀ state : State, ReachableWithin step Starts Interrupts state → ¬ Deadlocked state :=
  ⟨FrameHandoff.push_joined, listener_joined⟩

/-- camera-stream is stopped while `push_thread` sleeps; data-collector is stopped
by a signal that a datagram follows. -/
def cameraStopped : List (FrameHandoff.Label Nat) :=
  [.push true, .push true, .push true, .push true, .terminate, .main .nothing, .main .nothing,
    .main .nothing, .push true, .push true, .push true, .push true, .main .nothing]

def collectorStopped : List Label :=
  [.listener true, .listener true, .datagram [97, 58], .terminate, .listener true,
    .listener true, .main]

theorem shutdown_joins_both :
    ¬ FrameHandoff.Deadlocked (⟨false, none, none, 0, false, .ended, .done⟩ :
      FrameHandoff.State Nat) ∧
      ¬ Deadlocked ⟨false, none, [], .done, .testing, .joiningSender⟩ :=
  ⟨(shutdown_joins Nat).1 _
      ⟨FrameHandoff.initial, cameraStopped, rfl, by decide, by decide⟩,
    (shutdown_joins Nat).2 _ ⟨initial, collectorStopped, rfl, by decide, by decide⟩⟩

/-- `push_thread` tests `running`, the broadcast is made, and only then it waits. -/
def broadcastMissed : List (FrameHandoff.Label Nat) :=
  [.push true, .push true, .push true, .terminate, .main .nothing, .main .nothing,
    .main .nothing, .push true]

theorem shutdown_deadlocks :
    (∃ state : FrameHandoff.State Nat,
      Reachable FrameHandoff.step FrameHandoff.Starts state ∧ FrameHandoff.Deadlocked state) ∧
      ∃ state : State, Reachable step Starts state ∧ Deadlocked state := by
  refine ⟨⟨_, ⟨FrameHandoff.initial, broadcastMissed, rfl, rfl⟩, ?_⟩,
    ⟨_, ⟨initial, [.listener true, .listener true, .terminate], rfl, rfl⟩, ?_⟩⟩
  · exact FrameHandoff.deadlocked_asleep _ rfl rfl rfl
  · exact deadlocked_blocked _ rfl rfl ⟨rfl, rfl⟩

end SensorNode.ThreadShutdown
