import SensorNode.StepSystem

/-!
The restart of data-collector. The init script signals the old process and, not
waiting for it, starts a new one; both run the same program, whose listener
unlinks and binds SOCKET_PATH and whose `cleanup` unlinks it again. The path
names at most one socket, and each process binds at most one.
-/

namespace SensorNode.SocketPath

open StepSystem

/-- The sockets SOCKET_PATH may name: one for each process, or one left behind
by an earlier process. -/
inductive Socket where
  | leftover
  | old
  | new
  deriving DecidableEq

/-- The next step of `socket_listener`; a step from `receiving` is a return of
`recvfrom` with the test of `running` that follows. -/
inductive Listener where
  | idle
  | socketing
  | unlinking
  | binding
  | receiving
  | done
  deriving DecidableEq

inductive Sender where
  | idle
  | working
  | done
  deriving DecidableEq

/-- The next step of `main`; `closing` and `unlinking` are `cleanup`. -/
inductive Main where
  | starting
  | creatingListener
  | creatingSender
  | joiningListener
  | joiningSender
  | closing
  | unlinking
  | ended
  deriving DecidableEq

structure Process where
  running : Bool
  /-- Is `sock_fd` non-negative? It stays so when `bind` fails. -/
  sockFd : Bool
  bound : Bool
  listener : Listener
  sender : Sender
  main : Main
  deriving DecidableEq

def Process.fresh : Process := ⟨true, false, false, .idle, .idle, .starting⟩

def listenerStep (process : Process) (path : Option Socket) (socket : Socket) (works : Bool) :
    Option (Process × Option Socket) :=
  match process.listener with
  | .socketing =>
      if works then some ({ process with sockFd := true, listener := .unlinking }, path)
      else some ({ process with listener := .done }, path)
  -- `unlink` goes by name: whichever socket is there loses it.
  | .unlinking => some ({ process with listener := .binding }, none)
  | .binding =>
      -- `bind` does not replace what the path names.
      if path = none ∧ works = true then
        some ({ process with bound := true, listener := .receiving }, some socket)
      else some ({ process with listener := .done }, path)
  | .receiving =>
      some ({ process with listener := if process.running then .receiving else .done }, path)
  | .idle | .done => none

def senderStep (process : Process) : Option Process :=
  match process.sender with
  | .working => some { process with sender := if process.running then .working else .done }
  | .idle | .done => none

def mainStep (process : Process) (path : Option Socket) (works : Bool) :
    Option (Process × Option Socket) :=
  match process.main with
  | .starting => some ({ process with main := .creatingListener }, path)
  | .creatingListener =>
      if works then
        some ({ process with listener := .socketing, main := .creatingSender }, path)
      else some ({ process with main := .closing }, path)
  | .creatingSender =>
      if works then some ({ process with sender := .working, main := .joiningListener }, path)
      else some ({ process with main := .closing }, path)
  | .joiningListener =>
      if process.listener = .done then some ({ process with main := .joiningSender }, path)
      else none
  | .joiningSender =>
      if process.sender = .done then some ({ process with main := .closing }, path) else none
  | .closing =>
      some ({ process with main := if process.sockFd then .unlinking else .ended }, path)
  | .unlinking => some ({ process with main := .ended }, none)
  | .ended => none

/-- SIGTERM ends a process that has not installed its handler yet. -/
def Process.terminate (process : Process) : Process :=
  if process.main = .starting then { process with main := .ended }
  else { process with running := false }

inductive Action where
  | listener (works : Bool)
  | sender
  | main (works : Bool)
  deriving DecidableEq

/-- With the return of `main` the process is gone, whatever its threads do. -/
def Process.act (process : Process) (path : Option Socket) (socket : Socket) (action : Action) :
    Option (Process × Option Socket) :=
  if process.main = .ended then none
  else
    match action with
    | .listener works => listenerStep process path socket works
    | .sender => (senderStep process).map fun next => (next, path)
    | .main works => mainStep process path works

inductive Restart where
  | before
  | stopped
  | started
  deriving DecidableEq

structure State where
  restart : Restart
  old : Process
  new : Process
  path : Option Socket
  deriving DecidableEq

def initial (path : Option Socket) : State := ⟨.before, .fresh, .fresh, path⟩

inductive Label where
  | stop
  | start
  | terminate
  | old (action : Action)
  | new (action : Action)
  deriving DecidableEq

def step (state : State) : Label → Option State
  | .stop =>
      if state.restart = .before then
        some { state with restart := .stopped, old := state.old.terminate }
      else none
  | .start =>
      if state.restart = .stopped then some { state with restart := .started } else none
  | .terminate =>
      if state.restart = .started then some { state with new := state.new.terminate } else none
  | .old action =>
      (state.old.act state.path .old action).map fun next =>
        { state with old := next.1, path := next.2 }
  | .new action =>
      if state.restart = .started then
        (state.new.act state.path .new action).map fun next =>
          { state with new := next.1, path := next.2 }
      else none

def Starts (state : State) : Prop := ∃ path, path ≠ some .old ∧ path ≠ some .new ∧
  state = initial path

def Process.serves (process : Process) : Bool := process.bound && decide (process.main ≠ .ended)

def Reaches (state : State) : Prop := state.new.serves = true → state.path = some .new

def Process.unlinks (process : Process) : Action → Bool
  | .listener _ => decide (process.listener = .unlinking)
  | .sender => false
  | .main _ => decide (process.main = .unlinking)

/-- The old process does not unlink the path that the new one serves. -/
def Unlinked (state : State) : Label → Prop
  | .old action => state.old.unlinks action = true → state.new.serves = false
  | _ => True

instance (state : State) (label : Label) : Decidable (Unlinked state label) := by
  unfold Unlinked
  split <;> infer_instance

/-! ## The invariant -/

/-- The listener runs once it is created, and is past its own unlink when it has
bound its socket. -/
structure Process.Ordered (process : Process) : Prop where
  created : process.main = .starting ∨ process.main = .creatingListener →
    process.listener = .idle
  past : process.bound = true → process.listener = .receiving ∨ process.listener = .done

theorem serves_iff (process : Process) :
    process.serves = true ↔ process.bound = true ∧ process.main ≠ .ended := by
  simp [Process.serves]

theorem act_path (process next : Process) (path after : Option Socket) (socket : Socket)
    (action : Action) (keeps : process.unlinks action = false)
    (moved : process.act path socket action = some (next, after)) :
    after = path ∨ path = none ∧ after = some socket := by
  unfold Process.act at moved
  split at moved
  · cases moved
  · cases action with
    | listener works =>
        simp only [listenerStep] at moved
        split at moved
        · split at moved <;> cases moved <;> exact .inl rfl
        · next phase => simp [Process.unlinks, phase] at keeps
        · split at moved
          · next free =>
            cases moved
            exact .inr ⟨free.1, rfl⟩
          · cases moved
            exact .inl rfl
        · cases moved
          exact .inl rfl
        · cases moved
        · cases moved
    | sender =>
        obtain ⟨_, _, same⟩ := Option.map_eq_some_iff.mp moved
        cases same
        exact .inl rfl
    | main works =>
        simp only [mainStep] at moved
        split at moved
        case h_7 phase => simp [Process.unlinks, phase] at keeps
        all_goals first | (split at moved <;> cases moved <;> exact .inl rfl) | cases moved
        all_goals exact .inl rfl

theorem Process.Ordered.unbound {process : Process} (ordered : process.Ordered)
    (serving : process.listener ≠ .receiving) (waiting : process.listener ≠ .done) :
    ¬ process.bound = true :=
  fun bound => (ordered.past bound).elim serving waiting

theorem Process.Ordered.running {process : Process} (ordered : process.Ordered)
    (created : process.listener ≠ .idle) :
    ¬ (process.main = .starting ∨ process.main = .creatingListener) :=
  fun before => created (ordered.created before)

theorem listener_serves (process next : Process) (path after : Option Socket) (socket : Socket)
    (works : Bool) (ordered : process.Ordered)
    (moved : listenerStep process path socket works = some (next, after)) :
    next.Ordered ∧ next.main = process.main ∧
      (next.bound = true → after = some socket ∨ process.bound = true ∧ after = path) := by
  unfold listenerStep at moved
  split at moved
  · next phase =>
    have clear := ordered.unbound (by rw [phase]; nofun) (by rw [phase]; nofun)
    have running := ordered.running (by rw [phase]; nofun)
    split at moved <;> cases moved
    · exact ⟨⟨(absurd · running), (absurd · clear)⟩, rfl, (absurd · clear)⟩
    · exact ⟨⟨(absurd · running), fun _ => .inr rfl⟩, rfl, (absurd · clear)⟩
  · next phase =>
    have clear := ordered.unbound (by rw [phase]; nofun) (by rw [phase]; nofun)
    have running := ordered.running (by rw [phase]; nofun)
    cases moved
    exact ⟨⟨(absurd · running), (absurd · clear)⟩, rfl, (absurd · clear)⟩
  · next phase =>
    have running := ordered.running (by rw [phase]; nofun)
    split at moved <;> cases moved
    · exact ⟨⟨(absurd · running), fun _ => .inl rfl⟩, rfl, fun _ => .inl rfl⟩
    · exact ⟨⟨(absurd · running), fun _ => .inr rfl⟩, rfl, fun bound => .inr ⟨bound, rfl⟩⟩
  · next phase =>
    have running := ordered.running (by rw [phase]; nofun)
    cases moved
    refine ⟨⟨(absurd · running), fun _ => ?_⟩, rfl, fun bound => .inr ⟨bound, rfl⟩⟩
    cases process.running
    · exact .inr rfl
    · exact .inl rfl
  · cases moved
  · cases moved

theorem main_serves (process next : Process) (path after : Option Socket) (works : Bool)
    (ordered : process.Ordered) (moved : mainStep process path works = some (next, after)) :
    next.Ordered ∧ (next.main ≠ .ended → next.bound = process.bound ∧ after = path) := by
  unfold mainStep at moved
  split at moved
  · next phase =>
    cases moved
    exact ⟨⟨fun _ => ordered.created (.inl phase), ordered.past⟩, fun _ => ⟨rfl, rfl⟩⟩
  · next phase =>
    have idle := ordered.created (.inr phase)
    have clear := ordered.unbound (by rw [idle]; nofun) (by rw [idle]; nofun)
    split at moved <;> cases moved
    · exact ⟨⟨by simp, (absurd · clear)⟩, fun _ => ⟨rfl, rfl⟩⟩
    · exact ⟨⟨by simp, ordered.past⟩, fun _ => ⟨rfl, rfl⟩⟩
  · split at moved <;> cases moved <;>
      exact ⟨⟨by simp, ordered.past⟩, fun _ => ⟨rfl, rfl⟩⟩
  · split at moved <;> cases moved
    exact ⟨⟨by simp, ordered.past⟩, fun _ => ⟨rfl, rfl⟩⟩
  · split at moved <;> cases moved
    exact ⟨⟨by simp, ordered.past⟩, fun _ => ⟨rfl, rfl⟩⟩
  · cases moved
    refine ⟨⟨?_, ordered.past⟩, fun _ => ⟨rfl, rfl⟩⟩
    cases process.sockFd <;> simp
  · cases moved
    exact ⟨⟨by simp, ordered.past⟩, fun running => absurd rfl running⟩
  · cases moved

theorem act_serves (process next : Process) (path after : Option Socket) (socket : Socket)
    (action : Action) (ordered : process.Ordered)
    (moved : process.act path socket action = some (next, after)) :
    next.Ordered ∧
      (next.serves = true → after = some socket ∨ process.serves = true ∧ after = path) := by
  simp only [serves_iff]
  unfold Process.act at moved
  split at moved
  · cases moved
  · next running =>
    cases action with
    | listener works =>
        obtain ⟨ordered, same, serves⟩ :=
          listener_serves process next path after socket works ordered moved
        refine ⟨ordered, fun served => ?_⟩
        exact (serves served.1).imp id fun before => ⟨⟨before.1, running⟩, before.2⟩
    | sender =>
        obtain ⟨later, worked, same⟩ := Option.map_eq_some_iff.mp moved
        cases same
        unfold senderStep at worked
        split at worked <;> cases worked
        exact ⟨⟨ordered.created, ordered.past⟩,
          fun served => .inr ⟨⟨served.1, running⟩, rfl⟩⟩
    | main works =>
        obtain ⟨ordered, kept⟩ := main_serves process next path after works ordered moved
        refine ⟨ordered, fun served => ?_⟩
        obtain ⟨bound, same⟩ := kept served.2
        exact .inr ⟨⟨bound ▸ served.1, running⟩, same⟩

theorem terminate_serves (process : Process) (ordered : process.Ordered) :
    process.terminate.Ordered ∧
      (process.terminate.serves = true → process.serves = true) := by
  unfold Process.terminate
  split
  · exact ⟨⟨by simp, ordered.past⟩, by simp [Process.serves]⟩
  · exact ⟨⟨ordered.created, ordered.past⟩, id⟩

structure Kept (state : State) : Prop where
  ordered : state.new.Ordered
  reaches : Reaches state

theorem kept_step (state : State) (label : Label) (next : State) (kept : Kept state)
    (allowed : Unlinked state label) (moved : step state label = some next) : Kept next := by
  cases label with
  | stop =>
      simp only [step] at moved
      split at moved <;> cases moved
      exact ⟨kept.ordered, kept.reaches⟩
  | start =>
      simp only [step] at moved
      split at moved <;> cases moved
      exact ⟨kept.ordered, kept.reaches⟩
  | terminate =>
      simp only [step] at moved
      split at moved <;> cases moved
      obtain ⟨ordered, serves⟩ := terminate_serves state.new kept.ordered
      exact ⟨ordered, fun served => kept.reaches (serves served)⟩
  | old action =>
      obtain ⟨⟨old, path⟩, acted, same⟩ := Option.map_eq_some_iff.mp moved
      cases same
      refine ⟨kept.ordered, fun served => ?_⟩
      have named := kept.reaches served
      have keeps : state.old.unlinks action = false := by
        cases unlinks : state.old.unlinks action with
        | false => rfl
        | true => exact absurd served (by simp [allowed unlinks])
      -- What is left to the old process is a `bind`, and that needs a free path.
      rcases act_path state.old old state.path path .old action keeps acted with stays | taken
      · exact stays.trans named
      · exact absurd (named.symm.trans taken.1) nofun
  | new action =>
      simp only [step] at moved
      split at moved
      · obtain ⟨⟨new, path⟩, acted, same⟩ := Option.map_eq_some_iff.mp moved
        cases same
        obtain ⟨ordered, serves⟩ :=
          act_serves state.new new state.path path .new action kept.ordered acted
        refine ⟨ordered, fun served => ?_⟩
        rcases serves served with bound | ⟨before, stays⟩
        · exact bound
        · exact stays.trans (kept.reaches before)
      · cases moved

/-- In a run where the old process does not unlink the path that the new one
serves, that path names the socket of the new one. -/
theorem path_kept (state : State)
    (reached : ReachableWithin step Starts Unlinked state) : Reaches state := by
  have kept : Kept state := by
    apply reachable_within_invariant step Starts Kept Unlinked _ kept_step state reached
    rintro _ ⟨path, _, _, rfl⟩
    exact ⟨⟨fun _ => rfl, nofun⟩, nofun⟩
  exact kept.reaches

def launch (act : Action → Label) : List Label :=
  [.main true, .main true, .main true, .listener true, .listener true, .listener true].map act

def orderly : List Label :=
  launch .old ++ [.stop, .old (.listener true), .old .sender] ++
    List.replicate 4 (.old (.main true)) ++ [.start] ++ launch .new

theorem path_kept_orderly :
    ∃ state, exec step (initial none) orderly = some state ∧ state.new.serves = true ∧
      state.path = some .new :=
  ⟨_, rfl, rfl, path_kept _ ⟨initial none, orderly, ⟨none, nofun, nofun, rfl⟩, by decide, rfl⟩
    rfl⟩

/-- The new listener binds once the old process has ended: `cleanup` unlinks last. -/
def BindsAfter (state : State) : Label → Prop
  | .new (.listener _) => state.new.listener = .binding → state.old.main = .ended
  | _ => True

instance (state : State) (label : Label) : Decidable (BindsAfter state label) := by
  unfold BindsAfter
  split <;> infer_instance

theorem act_binds (process next : Process) (path after : Option Socket) (socket : Socket)
    (action : Action) (moved : process.act path socket action = some (next, after))
    (bound : next.bound = true) (before : ¬ process.bound = true) :
    ∃ works, action = .listener works ∧ process.listener = .binding := by
  unfold Process.act at moved
  split at moved
  · cases moved
  · cases action with
    | listener works =>
        refine ⟨works, rfl, ?_⟩
        simp only [listenerStep] at moved
        split at moved
        -- Only a `bind` sets `bound`.
        case h_3 phase => exact phase
        all_goals first | (split at moved <;> cases moved) | cases moved
        all_goals exact absurd bound before
    | sender =>
        obtain ⟨later, worked, same⟩ := Option.map_eq_some_iff.mp moved
        cases same
        unfold senderStep at worked
        split at worked <;> cases worked
        exact absurd bound before
    | main works =>
        simp only [mainStep] at moved
        split at moved
        all_goals first | (split at moved <;> cases moved) | cases moved
        all_goals exact absurd bound before

theorem act_running (process : Process) (path : Option Socket) (socket : Socket) (action : Action)
    (next : Process × Option Socket) (moved : process.act path socket action = some next) :
    process.main ≠ .ended := by
  intro ended
  simp [Process.act, ended] at moved

theorem terminate_ended (process : Process) (ended : process.main = .ended) :
    process.terminate.main = .ended := by
  unfold Process.terminate
  split
  · rfl
  · exact ended

theorem terminate_bound (process : Process) : process.terminate.bound = process.bound := by
  unfold Process.terminate
  split <;> rfl

/-- Two processes never serve at once. -/
def Alone (state : State) : Prop := state.new.bound = true → state.old.main = .ended

theorem alone_step (state : State) (label : Label) (next : State) (alone : Alone state)
    (allowed : BindsAfter state label) (moved : step state label = some next) : Alone next := by
  cases label with
  | stop =>
      simp only [step] at moved
      split at moved <;> cases moved
      exact fun bound => terminate_ended state.old (alone bound)
  | start =>
      simp only [step] at moved
      split at moved <;> cases moved
      exact alone
  | terminate =>
      simp only [step] at moved
      split at moved <;> cases moved
      exact fun bound => alone (terminate_bound state.new ▸ bound)
  | old action =>
      obtain ⟨⟨old, path⟩, acted, same⟩ := Option.map_eq_some_iff.mp moved
      cases same
      exact fun bound => absurd (alone bound) (act_running state.old _ _ _ _ acted)
  | new action =>
      simp only [step] at moved
      split at moved
      · obtain ⟨⟨new, path⟩, acted, same⟩ := Option.map_eq_some_iff.mp moved
        cases same
        intro bound
        by_cases before : state.new.bound = true
        · exact alone before
        -- The step is the bind, which waits for the old process.
        · obtain ⟨works, rfl, phase⟩ :=
            act_binds state.new new _ path .new action acted bound before
          exact allowed phase
      · cases moved

/-- A restart that waits for the old process before it binds meets the condition. -/
theorem path_kept_after (state : State) (reached : ReachableWithin step Starts BindsAfter state) :
    Reaches state := by
  have both : Kept state ∧ Alone state := by
    apply reachable_within_invariant step Starts (fun state => Kept state ∧ Alone state)
      BindsAfter _ _ state reached
    · rintro _ ⟨path, _, _, rfl⟩
      exact ⟨⟨⟨fun _ => rfl, nofun⟩, nofun⟩, nofun⟩
    · intro state label next ⟨kept, alone⟩ allowed moved
      -- An old process that is gone takes no step.
      have unlinked : Unlinked state label := by
        cases label with
        | old action =>
            intro _
            obtain ⟨after, acted, _⟩ := Option.map_eq_some_iff.mp moved
            cases serves : state.new.serves with
            | false => rfl
            | true =>
                have ended := alone ((serves_iff state.new).mp serves).1
                exact absurd ended (act_running state.old _ _ _ _ acted)
        | _ => trivial
      exact ⟨kept_step state label next kept unlinked moved,
        alone_step state label next alone allowed moved⟩
  exact both.1.reaches

/-- `web_sender` of the old process outlasts the start of the new one. -/
def overlapping : List Label :=
  launch .old ++ [.stop, .old (.listener true), .start] ++ launch .new ++
    [.old .sender] ++ List.replicate 4 (.old (.main true))

/-- The new process serves its socket, and no path names it. -/
theorem path_lost : ∃ state, Reachable step Starts state ∧ ¬ Reaches state :=
  ⟨_, ⟨initial none, overlapping, ⟨none, nofun, nofun, rfl⟩, rfl⟩,
    fun reaches => nomatch reaches rfl⟩

end SensorNode.SocketPath
