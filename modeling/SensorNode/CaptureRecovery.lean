import Mathlib.Algebra.Group.Nat.Even
import Mathlib.Data.List.Infix
import SensorNode.CaptureLoop

/-!
How the capture loop recovers. A run is watched and its events noted, newest first; the
two counters of the loop are then functions of what has been noted: the timeouts since
the last frame or successful open, and the failed reopens since the last successful
open. When a camera is reopened and when the loop gives up are said of the notes alone.
-/

namespace SensorNode.CaptureRecovery

open StepSystem CaptureLoop

/-! ## What is noted -/

/-- On whose behalf `open_camera` is called. -/
inductive Purpose where
  | start
  | reload
  | reopen
  deriving DecidableEq

/-- `reopening` is a call of `reopen_camera`, `working` whether its descriptor is open. -/
inductive Event where
  | opened (purpose : Purpose) (ok : Bool)
  | timeout
  | frame
  | dequeueError
  | reopening (attempt wait : Nat) (working : Bool)
  | stopped
  deriving DecidableEq

abbrev History := List Event

structure Watched where
  state : State
  history : History

def purpose : Phase → Purpose
  | .starting => .start
  | .reloading => .reload
  | _ => .reopen

/-- What happens in a step, before the call of `reopen_camera` it may end with. -/
def cause (state : State) : Label → History
  | .opening driver => [.opened (purpose state.phase) (openCamera driver state.ledger).1.isSome]
  | .test running _ => if running then [] else [.stopped]
  | .select outcome =>
      if (if state.camFd.isSome then outcome else .timeout) = .timeout then [.timeout] else []
  | .dequeue .empty => []
  | .dequeue .failed => [.dequeueError]
  | .dequeue .frame => [.frame]

/-- The call of `reopen_camera` that a step ends with. -/
def call (state next : State) : History :=
  match next.phase with
  | .reopening attempt wait => [.reopening attempt wait state.camFd.isSome]
  | _ => []

def watch (watched : Watched) (label : Label) : Option Watched :=
  (step watched.state label).map fun next =>
    ⟨next, call watched.state next ++ (cause watched.state label ++ watched.history)⟩

def Starts (watched : Watched) : Prop := watched = ⟨initial, []⟩

/-- Every run of the loop can be watched. -/
theorem watch_complete (watched : Watched) (labels : List Label) (after : State)
    (ran : exec step watched.state labels = some after) :
    ∃ history, exec watch watched labels = some ⟨after, history⟩ := by
  induction labels generalizing watched with
  | nil =>
      cases ran
      exact ⟨watched.history, rfl⟩
  | cons label rest ih =>
      obtain ⟨next, moved, tail⟩ := (exec_cons_iff step _ _ label rest).mp ran
      have seen : watch watched label = some
          ⟨next, call watched.state next ++ (cause watched.state label ++ watched.history)⟩ := by
        rw [watch, moved]
        rfl
      obtain ⟨history, tail⟩ := ih ⟨next, _⟩ tail
      exact ⟨history, (exec_cons_iff watch _ _ label rest).mpr ⟨_, seen, tail⟩⟩

/-! ## The policy -/

def Event.fresh : Event → Bool
  | .frame | .opened _ true => true
  | _ => false

def Event.opens : Event → Bool
  | .opened _ ok => ok
  | _ => false

def timeouts (history : History) : Nat :=
  (history.takeWhile fun event => !event.fresh).count .timeout

def failures (history : History) : Nat :=
  (history.takeWhile fun event => !event.opens).count (.opened .reopen false)

/-- What stands before a call of `reopen_camera` on a working descriptor. -/
def Warranted (earlier : History) : Prop :=
  earlier.head? = some .dequeueError ∨ earlier.head? = some .timeout ∧ timeouts earlier = 5

def GivesUp (history : History) : Prop :=
  history.head? = some (.opened .reload false) ∨ failures history = 5

def Policy (history : History) : Prop :=
  ∀ attempt wait working earlier, (.reopening attempt wait working :: earlier) <:+ history →
    attempt ≤ 4 ∧ wait = 2 ^ attempt ∧ (working = true → Warranted earlier)

/-! ## The counters -/

theorem timeouts_fresh (event : Event) (history : History) (fresh : event.fresh = true) :
    timeouts (event :: history) = 0 := by
  simp [timeouts, fresh]

@[simp] theorem timeouts_timeout (history : History) :
    timeouts (.timeout :: history) = timeouts history + 1 := by
  simp [timeouts, Event.fresh]

@[simp] theorem failures_opened (purpose : Purpose) (history : History) :
    failures (.opened purpose true :: history) = 0 := by
  simp [failures, Event.opens]

@[simp] theorem failures_reopen (history : History) :
    failures (.opened .reopen false :: history) = failures history + 1 := by
  simp [failures, Event.opens]

theorem failures_other (event : Event) (history : History) (shut : event.opens = false)
    (other : event ≠ .opened .reopen false) : failures (event :: history) = failures history := by
  simp [failures, shut, other]

theorem backoff_small (attempt : Nat) (few : attempt ≤ 4) : backoff attempt = 2 ^ attempt := by
  rw [backoff, Nat.one_shiftLeft]
  exact Nat.min_eq_left (Nat.pow_le_pow_right (by decide) few)

/-- The counters of the loop are those of the notes, and the notes keep to the policy. -/
structure Follows (watched : Watched) : Prop where
  policy : Policy watched.history
  attempts : watched.state.reopenAttempts = failures watched.history
  few : failures watched.history ≤ 5
  first : watched.state.phase = .starting → watched.state = initial ∧ watched.history = []
  ready : watched.state.phase = .dequeuing → watched.state.camFd.isSome = true
  working : Streaming watched.state →
    watched.state.consecutiveTimeouts = timeouts watched.history ∧
      timeouts watched.history ≤ 4 ∧ failures watched.history = 0
  verdict : watched.state.phase = .ended 0 ∧ watched.history.head? ≠ some .stopped ↔
    GivesUp watched.history

theorem finish_attempts (state : State) : (finish state).reopenAttempts = state.reopenAttempts := by
  unfold finish
  split <;> rfl

theorem policy_cons (event : Event) (history : History) (kept : Policy history)
    (called : ∀ attempt wait working, event = .reopening attempt wait working →
      attempt ≤ 4 ∧ wait = 2 ^ attempt ∧ (working = true → Warranted history)) :
    Policy (event :: history) := by
  intro attempt wait working earlier within
  rcases List.suffix_cons_iff.mp within with now | before
  · obtain ⟨rfl, rfl⟩ := List.cons.inj now
    exact called attempt wait working rfl
  · exact kept attempt wait working earlier before

theorem not_streaming (state : State) (quiet : streams state.phase = false) :
    ¬ Streaming state := fun streaming => by
  rw [Streaming, quiet] at streaming
  exact Bool.false_ne_true streaming.2

theorem streams_going (phase : Phase) (live : streams phase = true) : phase ≠ .ended 0 := by
  rintro rfl
  cases live

theorem not_givesUp (event : Event) (history : History) (other : event ≠ .opened .reload false)
    (few : failures (event :: history) ≤ 4) : ¬ GivesUp (event :: history) := by
  rintro (reload | five)
  · exact other (Option.some.inj reload)
  · omega

theorem verdict_going (state : State) (history : History) (going : state.phase ≠ .ended 0)
    (lasting : ¬ GivesUp history) :
    state.phase = .ended 0 ∧ history.head? ≠ some .stopped ↔ GivesUp history :=
  iff_of_false (fun both => going both.1) lasting

theorem follows_opened (next : State) (purpose : Purpose) (history : History)
    (policy : Policy history) (timeouts : next.consecutiveTimeouts = 0)
    (attempts : next.reopenAttempts = 0)
    (phase : next.phase = .testing ∨ next.phase = .selecting) :
    Follows ⟨next, .opened purpose true :: history⟩ where
  policy := policy_cons _ _ policy fun _ _ _ => Event.noConfusion
  attempts := attempts.trans (failures_opened purpose history).symm
  few := by simp
  first start := by rcases phase with phase | phase <;> cases phase.symm.trans start
  ready dequeuing := by rcases phase with phase | phase <;> cases phase.symm.trans dequeuing
  working _ := by
    rw [timeouts_fresh _ _ rfl]
    exact ⟨timeouts, Nat.zero_le 4, failures_opened purpose history⟩
  verdict := by rcases phase with phase | phase <;> simp [phase, GivesUp]

theorem follows_lost (next : State) (purpose : Purpose) (history : History)
    (policy : Policy history) (phase : next.phase = .ended 0)
    (attempts : next.reopenAttempts = failures (.opened purpose false :: history))
    (few : failures (.opened purpose false :: history) ≤ 5)
    (gone : GivesUp (.opened purpose false :: history)) :
    Follows ⟨next, .opened purpose false :: history⟩ where
  policy := policy_cons _ _ policy fun _ _ _ => Event.noConfusion
  attempts := attempts
  few := few
  first start := by cases phase.symm.trans start
  ready dequeuing := by cases phase.symm.trans dequeuing
  working streaming := absurd streaming (not_streaming next (by rw [phase]; rfl))
  verdict := iff_of_true ⟨phase, by simp⟩ gone

section
variable {watched : Watched} (follows : Follows watched)
include follows

theorem Follows.going (phase : watched.state.phase ≠ .ended 0) :
    ¬ GivesUp watched.history ∧ failures watched.history ≤ 4 := by
  have lasting := mt follows.verdict.mpr fun both => phase both.1
  have unspent : failures watched.history ≠ 5 := fun all => lasting (.inr all)
  have most := follows.few
  exact ⟨lasting, by omega⟩

theorem follows_start (driver : Driver) (phase : watched.state.phase = .starting)
    (ok : (openCamera driver watched.state.ledger).1.isSome = false) :
    Follows ⟨afterOpen (assign watched.state (openCamera driver watched.state.ledger)) .starting,
      .opened .start false :: watched.history⟩ := by
  obtain ⟨fresh, empty⟩ := follows.first phase
  have closed : (openCamera driver watched.state.ledger).1 = none := by simpa using ok
  have next : afterOpen (assign watched.state (openCamera driver watched.state.ledger)) .starting =
      { assign watched.state (openCamera driver watched.state.ledger) with phase := .ended 1 } := by
    simp [afterOpen, assign, closed]
  have none : watched.state.reopenAttempts = 0 := by rw [fresh]; rfl
  rw [next, empty]
  exact
    { policy := policy_cons _ _ (by intro _ _ _ _ within; simp at within)
        fun _ _ _ => Event.noConfusion
      attempts := by simpa [assign, closed, failures, Event.opens] using none
      few := by simp [failures, Event.opens]
      first := Phase.noConfusion
      ready := Phase.noConfusion
      working := fun streaming => absurd streaming (not_streaming _ rfl)
      verdict := by simp [GivesUp, failures, Event.opens] }

theorem follows_reload (driver : Driver)
    (ok : (openCamera driver watched.state.ledger).1.isSome = false) :
    Follows ⟨afterOpen (assign watched.state (openCamera driver watched.state.ledger)) .reloading,
      .opened .reload false :: watched.history⟩ := by
  have closed : (openCamera driver watched.state.ledger).1 = none := by simpa using ok
  have next : afterOpen (assign watched.state (openCamera driver watched.state.ledger)) .reloading =
      finish (assign watched.state (openCamera driver watched.state.ledger)) := by
    simp [afterOpen, assign, closed]
  have same : failures (.opened .reload false :: watched.history) = failures watched.history :=
    failures_other _ _ rfl (by simp)
  have kept : (assign watched.state (openCamera driver watched.state.ledger)).reopenAttempts =
      watched.state.reopenAttempts := by simp [assign, closed]
  rw [next]
  apply follows_lost _ _ _ follows.policy (finish_phase _) _ (by rw [same]; exact follows.few)
    (.inl rfl)
  rw [finish_attempts, kept, same, follows.attempts]

theorem follows_reopen (driver : Driver) (attempt wait : Nat)
    (phase : watched.state.phase = .reopening attempt wait)
    (ok : (openCamera driver watched.state.ledger).1.isSome = false) :
    Follows ⟨afterOpen (assign watched.state (openCamera driver watched.state.ledger))
        (.reopening attempt wait), .opened .reopen false :: watched.history⟩ := by
  have closed : (openCamera driver watched.state.ledger).1 = none := by simpa using ok
  obtain ⟨-, few⟩ := follows.going (by rw [phase]; simp)
  have kept : (assign watched.state (openCamera driver watched.state.ledger)).reopenAttempts =
      watched.state.reopenAttempts := by simp [assign, closed]
  have shut : (assign watched.state (openCamera driver watched.state.ledger)).camFd = none := by
    simp [assign, closed]
  generalize assign watched.state (openCamera driver watched.state.ledger) = opened at kept shut ⊢
  have count : opened.reopenAttempts + 1 = failures (.opened .reopen false :: watched.history) := by
    rw [failures_reopen, kept, follows.attempts]
  rw [failures_reopen] at count
  simp only [afterOpen, reopened, shut, maxReopenAttempts]
  -- The last attempt that fails ends the loop, and any other makes the next.
  by_cases last : opened.reopenAttempts + 1 ≥ 5
  · rw [if_pos last]
    apply follows_lost _ _ _ follows.policy (finish_phase _) _ _ (.inr _)
    · rw [finish_attempts, failures_reopen]
      exact count
    · rw [failures_reopen]
      omega
    · rw [failures_reopen]
      omega
  · rw [if_neg last]
    exact
      { policy := policy_cons _ _ follows.policy fun _ _ _ => Event.noConfusion
        attempts := by rw [failures_reopen]; exact count
        few := by rw [failures_reopen]; omega
        first := Phase.noConfusion
        ready := Phase.noConfusion
        working := fun streaming => absurd streaming.1 (by simp)
        verdict := verdict_going _ _ Phase.noConfusion
          (not_givesUp _ _ (by simp) (by rw [failures_reopen]; omega)) }

theorem follows_quiet (next : State) (live : streams watched.state.phase = true)
    (timeouts : next.consecutiveTimeouts = watched.state.consecutiveTimeouts)
    (attempts : next.reopenAttempts = watched.state.reopenAttempts)
    (fd : next.camFd = watched.state.camFd) (begun : next.phase ≠ .starting)
    (lasts : next.phase ≠ .ended 0) (ready : next.phase = .dequeuing → next.camFd.isSome = true) :
    Follows ⟨next, watched.history⟩ where
  policy := follows.policy
  attempts := attempts.trans follows.attempts
  few := follows.few
  first start := absurd start begun
  ready := ready
  working streaming := by
    rw [timeouts]
    exact follows.working ⟨fd ▸ streaming.1, live⟩
  verdict := verdict_going _ _ lasts (follows.going (streams_going _ live)).1

theorem follows_stopped (live : watched.state.phase = .testing) :
    Follows ⟨finish watched.state, .stopped :: watched.history⟩ := by
  obtain ⟨-, few⟩ := follows.going (by rw [live]; simp)
  have same : failures (.stopped :: watched.history) = failures watched.history :=
    failures_other _ _ rfl (by simp)
  exact
    { policy := policy_cons _ _ follows.policy fun _ _ _ => Event.noConfusion
      attempts := by rw [finish_attempts, same]; exact follows.attempts
      few := by rw [same]; exact follows.few
      first := fun start => by cases (finish_phase _).symm.trans start
      ready := fun dequeuing => by cases (finish_phase _).symm.trans dequeuing
      working := fun streaming => absurd streaming (not_streaming_finish _)
      verdict := iff_of_false (fun both => both.2 rfl)
        (not_givesUp _ _ (by simp) (by rw [same]; exact few)) }

theorem follows_timeout (live : streams watched.state.phase = true)
    (under : ¬ watched.state.consecutiveTimeouts + 1 ≥ stallMaxTimeouts) :
    Follows ⟨{ watched.state with
        consecutiveTimeouts := watched.state.consecutiveTimeouts + 1, phase := .testing },
      .timeout :: watched.history⟩ := by
  obtain ⟨-, few⟩ := follows.going (streams_going _ live)
  have same : failures (.timeout :: watched.history) = failures watched.history :=
    failures_other _ _ rfl (by simp)
  exact
    { policy := policy_cons _ _ follows.policy fun _ _ _ => Event.noConfusion
      attempts := by rw [same]; exact follows.attempts
      few := by rw [same]; exact follows.few
      first := Phase.noConfusion
      ready := Phase.noConfusion
      working := fun streaming => by
        obtain ⟨count, -, none⟩ := follows.working ⟨streaming.1, live⟩
        rw [timeouts_timeout, same]
        have limit : stallMaxTimeouts = 5 := rfl
        refine ⟨congrArg (· + 1) count, ?_, none⟩
        omega
      verdict := verdict_going _ _ Phase.noConfusion
        (not_givesUp _ _ (by simp) (by rw [same]; exact few)) }

theorem follows_call (state : State) (event : Event) (live : streams watched.state.phase = true)
    (attempts : state.reopenAttempts = watched.state.reopenAttempts)
    (plain : event = .timeout ∨ event = .dequeueError)
    (warranted : watched.state.camFd.isSome = true → Warranted (event :: watched.history)) :
    Follows ⟨reopenCamera state, call watched.state (reopenCamera state) ++
      ([event] ++ watched.history)⟩ := by
  obtain ⟨-, few⟩ := follows.going (streams_going _ live)
  have count : state.reopenAttempts = failures watched.history := attempts.trans follows.attempts
  have noted : call watched.state (reopenCamera state) ++ ([event] ++ watched.history) =
      .reopening state.reopenAttempts (backoff state.reopenAttempts) watched.state.camFd.isSome ::
        event :: watched.history := rfl
  have same : failures (event :: watched.history) = failures watched.history := by
    rcases plain with rfl | rfl <;> exact failures_other _ _ rfl (by simp)
  have called : failures (.reopening state.reopenAttempts (backoff state.reopenAttempts)
      watched.state.camFd.isSome :: event :: watched.history) = failures watched.history :=
    (failures_other _ _ rfl (by simp)).trans same
  rw [noted]
  exact
    { policy := by
        apply policy_cons _ _ (policy_cons _ _ follows.policy fun _ _ _ reopening => ?_)
        · intro attempt wait working this
          cases this
          exact ⟨by omega, backoff_small _ (by omega), warranted⟩
        · rcases plain with rfl | rfl <;> cases reopening
      attempts := by rw [called]; exact count
      few := by rw [called]; exact follows.few
      first := Phase.noConfusion
      ready := Phase.noConfusion
      working := fun streaming => absurd streaming (not_streaming _ rfl)
      verdict := verdict_going _ _ Phase.noConfusion
        (not_givesUp _ _ (by simp) (by rw [called]; exact few)) }

theorem follows_frame (phase : watched.state.phase = .dequeuing) :
    Follows ⟨settled watched.state .testing, .frame :: watched.history⟩ := by
  obtain ⟨-, -, none⟩ := follows.working ⟨follows.ready phase, by rw [phase]; rfl⟩
  have same : failures (.frame :: watched.history) = 0 :=
    (failures_other _ _ rfl (by simp)).trans none
  exact
    { policy := policy_cons _ _ follows.policy fun _ _ _ => Event.noConfusion
      attempts := same.symm
      few := by rw [same]; exact Nat.zero_le 5
      first := Phase.noConfusion
      ready := Phase.noConfusion
      working := fun _ => by
        rw [timeouts_fresh _ _ rfl]
        exact ⟨rfl, Nat.zero_le 4, same⟩
      verdict := verdict_going _ _ Phase.noConfusion
        (not_givesUp _ _ (by simp) (by rw [same]; exact Nat.zero_le 4)) }

end

/-! ## Every run -/

theorem call_none (state next : State)
    (quiet : ∀ attempt wait, next.phase ≠ .reopening attempt wait) : call state next = [] := by
  unfold call
  split
  · rename_i attempt wait phase
    exact absurd phase (quiet attempt wait)
  · rfl

theorem finish_call (state other : State) : call other (finish state) = [] :=
  call_none _ _ fun attempt wait => by simp [finish_phase]

theorem afterOpen_call (state other : State) (phase : Phase) :
    call other (afterOpen state phase) = [] := by
  have finished := finish_call
  unfold afterOpen
  split
  · split <;> rfl
  · split
    · rfl
    · exact finished _ _
  · unfold reopened
    split
    · rfl
    · simp only
      split
      · exact finished _ _
      · rfl

theorem assign_counters (state : State)
    (opened : Option Camera × ResourceLedger.Ledger Resource) :
    (assign state opened).consecutiveTimeouts = state.consecutiveTimeouts ∧
      (assign state opened).reopenAttempts = state.reopenAttempts := by
  unfold assign
  split <;> exact ⟨rfl, rfl⟩

theorem afterOpen_opened (state : State) (phase : Phase) (opened : state.camFd.isSome = true)
    (begun : phase = .starting → state.consecutiveTimeouts = 0 ∧ state.reopenAttempts = 0) :
    (afterOpen state phase).consecutiveTimeouts = 0 ∧ (afterOpen state phase).reopenAttempts = 0 ∧
      ((afterOpen state phase).phase = .testing ∨ (afterOpen state phase).phase = .selecting) := by
  obtain ⟨fd, here⟩ := Option.isSome_iff_exists.mp opened
  have settles : reopened state = settled state .testing := by simp [reopened, here]
  cases phase with
  | starting =>
      rw [afterOpen, if_pos opened]
      exact ⟨(begun rfl).1, (begun rfl).2, .inl rfl⟩
  | reloading =>
      rw [afterOpen, if_pos opened]
      exact ⟨rfl, rfl, .inr rfl⟩
  | _ =>
      rw [afterOpen, settles]
      · exact ⟨rfl, rfl, .inl rfl⟩
      · exact Phase.noConfusion
      · exact Phase.noConfusion

theorem follows_opening (watched : Watched) (follows : Follows watched) (driver : Driver)
    (phase : watched.state.phase = .starting ∨ watched.state.phase = .reloading ∨
      ∃ attempt wait, watched.state.phase = .reopening attempt wait) :
    Follows ⟨afterOpen (assign watched.state (openCamera driver watched.state.ledger))
        watched.state.phase,
      .opened (purpose watched.state.phase) (openCamera driver watched.state.ledger).1.isSome ::
        watched.history⟩ := by
  cases ok : (openCamera driver watched.state.ledger).1.isSome with
  | true =>
      have opened : (assign watched.state (openCamera driver watched.state.ledger)).camFd.isSome
          = true := by rw [assign_camFd, Option.isSome_map, ok]
      obtain ⟨counts, attempts⟩ := assign_counters watched.state
        (openCamera driver watched.state.ledger)
      have begun : watched.state.phase = .starting →
          watched.state.consecutiveTimeouts = 0 ∧ watched.state.reopenAttempts = 0 := by
        intro start
        rw [(follows.first start).1]
        exact ⟨rfl, rfl⟩
      rw [← counts, ← attempts] at begun
      obtain ⟨none, zero, runs⟩ := afterOpen_opened _ watched.state.phase opened begun
      exact follows_opened _ _ _ follows.policy none zero runs
  | false =>
      rcases phase with phase | phase | ⟨attempt, wait, phase⟩
      · rw [phase]
        exact follows_start follows driver phase ok
      · rw [phase]
        exact follows_reload follows driver ok
      · rw [phase]
        exact follows_reopen follows driver attempt wait phase ok

theorem follows_waited (watched : Watched) (follows : Follows watched)
    (live : streams watched.state.phase = true) :
    Follows ⟨afterSelect watched.state .timeout,
      call watched.state (afterSelect watched.state .timeout) ++
        ([.timeout] ++ watched.history)⟩ := by
  simp only [afterSelect]
  by_cases last : watched.state.consecutiveTimeouts + 1 ≥ stallMaxTimeouts
  · rw [if_pos last]
    apply follows_call follows { watched.state with
      consecutiveTimeouts := watched.state.consecutiveTimeouts + 1 } .timeout live rfl
      (.inl rfl)
    intro working
    obtain ⟨count, under, -⟩ := follows.working ⟨working, live⟩
    have limit : stallMaxTimeouts = 5 := rfl
    refine .inr ⟨rfl, ?_⟩
    rw [timeouts_timeout]
    omega
  · rw [if_neg last]
    exact follows_timeout follows live last

/-- One step keeps the counters those of the notes. -/
theorem watch_follows (watched : Watched) (label : Label) (next : Watched)
    (follows : Follows watched) (moved : watch watched label = some next) : Follows next := by
  obtain ⟨state, went, rfl⟩ := Option.map_eq_some_iff.mp moved
  cases step_moves watched.state label state went with
  | opening driver phase =>
      rw [afterOpen_call]
      exact follows_opening watched follows driver phase
  | test running reload phase =>
      have live : streams watched.state.phase = true := by rw [phase]; rfl
      cases running with
      | false =>
          simp only [Bool.not_false, if_true]
          rw [finish_call]
          exact follows_stopped follows phase
      | true =>
          cases reload with
          | true =>
              exact follows_quiet follows _ live rfl rfl rfl Phase.noConfusion Phase.noConfusion
                Phase.noConfusion
          | false =>
              exact follows_quiet follows _ live rfl rfl rfl Phase.noConfusion Phase.noConfusion
                Phase.noConfusion
  | select outcome phase =>
      have live : streams watched.state.phase = true := by rw [phase]; rfl
      generalize seen : (if watched.state.camFd.isSome = true then outcome else .timeout) = result
      simp only [cause, seen]
      cases result with
      | interrupted =>
          exact follows_quiet follows _ live rfl rfl rfl Phase.noConfusion Phase.noConfusion
            Phase.noConfusion
      | failed =>
          exact follows_quiet follows _ live rfl rfl rfl Phase.noConfusion Phase.noConfusion
            Phase.noConfusion
      | ready =>
          have working : watched.state.camFd.isSome = true := by
            -- `select` on a closed descriptor never reports it as ready.
            by_contra closed
            rw [if_neg closed] at seen
            cases seen
          exact follows_quiet follows _ live rfl rfl rfl Phase.noConfusion Phase.noConfusion
            fun _ => working
      | timeout =>
          simp only [if_true]
          exact follows_waited watched follows live
  | dequeue outcome phase =>
      have live : streams watched.state.phase = true := by rw [phase]; rfl
      cases outcome with
      | empty =>
          exact follows_quiet follows _ live rfl rfl rfl Phase.noConfusion Phase.noConfusion
            Phase.noConfusion
      | failed => exact follows_call follows _ .dequeueError live rfl (.inr rfl) fun _ => .inl rfl
      | frame => exact follows_frame follows phase

theorem follows_initial : Follows ⟨initial, []⟩ where
  policy := by
    intro _ _ _ _ within
    simp at within
  attempts := rfl
  few := Nat.zero_le 5
  first _ := ⟨rfl, rfl⟩
  ready := Phase.noConfusion
  working streaming := absurd streaming (not_streaming _ rfl)
  verdict := by
    refine verdict_going _ _ Phase.noConfusion ?_
    rintro (reload | five)
    · cases reload
    · cases five

theorem recovery_policy (watched : Watched) (reached : Reachable watch Starts watched) :
    (∀ attempt wait working earlier,
      (.reopening attempt wait working :: earlier) <:+ watched.history →
        attempt ≤ 4 ∧ wait = 2 ^ attempt ∧ (working = true →
          earlier.head? = some .dequeueError ∨
            earlier.head? = some .timeout ∧ timeouts earlier = 5)) ∧
    (watched.state.phase = .ended 0 ∧ watched.history.head? ≠ some .stopped ↔
      watched.history.head? = some (.opened .reload false) ∨ failures watched.history = 5) := by
  have follows : Follows watched := reachable_invariant watch Starts Follows
    (fun _ started => started ▸ follows_initial)
    (fun before label next holds moved => watch_follows before label next holds moved)
    watched reached
  exact ⟨follows.policy, follows.verdict⟩

def answering (opens : Bool) : Driver :=
  ⟨opens, true, some 1, true, fun _ => true, fun _ => true, fun _ => true, true⟩

def lostCamera : List Label :=
  [.opening (answering true), .test true false, .select .interrupted, .test true false,
    .select .ready, .dequeue .frame,
    .test true false, .select .ready, .dequeue .failed, .opening (answering false)] ++
  (List.replicate 4 [.test true false, .select .timeout, .opening (answering false)]).flatten

/-- Five reopens fail and the loop gives up. -/
theorem recovery_policy_lost : ∃ watched, exec watch ⟨initial, []⟩ lostCamera = some watched ∧
    (watched.history.head? = some (.opened .reload false) ∨ failures watched.history = 5) := by
  have ends : (exec watch ⟨initial, []⟩ lostCamera).map
      (fun watched => (watched.state.phase, watched.history.head?)) =
        some (.ended 0, some (.opened .reopen false)) := by
    decide +kernel
  obtain ⟨watched, ran, value⟩ := Option.map_eq_some_iff.mp ends
  obtain ⟨phase, head⟩ := Prod.ext_iff.mp value
  have policy := recovery_policy watched ⟨_, lostCamera, rfl, ran⟩
  refine ⟨watched, ran, policy.2.mp ⟨phase, ?_⟩⟩
  intro stopped
  cases head.symm.trans stopped

end SensorNode.CaptureRecovery
