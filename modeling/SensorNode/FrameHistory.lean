import SensorNode.FrameHandoff

/-!
What `push_thread` gets of the frames that `main` publishes. The two threads are
run with a record of every frame stored in `frame_buf` and of every pair that is
read from it; a take remembers which publication was the latest.
-/

namespace SensorNode.FrameHistory

open StepSystem FrameHandoff

universe u
variable {Data : Type u}

/-- The pair that `push_thread` reads, and the place of the latest publication. -/
structure Take (Data : Type u) where
  serial : Nat
  data : Option Data
  size : Nat

structure History (Data : Type u) where
  state : State Data
  published : List (Data × Nat)
  takes : List (Take Data)

/-- A frame counts as published with the first write of the critical section. -/
def publish (history : History Data) : List (Data × Nat) :=
  match history.state.main with
  | .storing data size => history.published ++ [(data, size)]
  | _ => history.published

/-- A frame is taken when it is copied, also when there is no memory for the copy. -/
def take (history : History Data) : List (Take Data) :=
  match history.state.push with
  | .copying size =>
      history.takes ++ [⟨history.published.length - 1, history.state.data, size⟩]
  | _ => history.takes

def step (history : History Data) (label : Label Data) : Option (History Data) :=
  (FrameHandoff.step history.state label).map fun next =>
    match label with
    | .main _ => { history with state := next, published := publish history }
    | .push _ => { history with state := next, takes := take history }
    | .terminate | .spurious => { history with state := next }

def Starts (history : History Data) : Prop := history = ⟨FrameHandoff.initial, [], []⟩

/-! ## The lock -/

/-- `main` is between its lock and its unlock. -/
def holdsMain : Main Data → Bool
  | .storing _ _ | .sizing _ | .raising | .signalling | .unlocking => true
  | _ => false

def holdsPush : Push Data → Bool
  | .checking | .entering | .deciding | .leaving | .sizing | .copying _ | .clearing _
  | .unlocking _ => true
  | _ => false

structure Locking (state : State Data) : Prop where
  main : holdsMain state.main = true → state.lock = some .main
  push : holdsPush state.push = true → state.lock = some .push

theorem Locking.apart {state : State Data} (locking : Locking state)
    (main : holdsMain state.main = true) : holdsPush state.push = false := by
  cases holds : holdsPush state.push with
  | false => rfl
  | true => exact nomatch (locking.main main).symm.trans (locking.push holds)

theorem Locking.free {state : State Data} (locking : Locking state) (free : state.lock = none) :
    holdsMain state.main = false ∧ holdsPush state.push = false := by
  constructor
  · cases holds : holdsMain state.main with
    | false => rfl
    | true => exact absurd ((locking.main holds).symm.trans free) (Option.some_ne_none _)
  · cases holds : holdsPush state.push with
    | false => rfl
    | true => exact absurd ((locking.push holds).symm.trans free) (Option.some_ne_none _)

theorem locking_outside (state : State Data) (outside : holdsMain state.main = false)
    (push : holdsPush state.push = true → state.lock = some .push) : Locking state :=
  ⟨fun holds => absurd (outside.symm.trans holds) Bool.false_ne_true, push⟩

theorem locking_away (state : State Data) (away : holdsPush state.push = false)
    (main : holdsMain state.main = true → state.lock = some .main) : Locking state :=
  ⟨main, fun holds => absurd (away.symm.trans holds) Bool.false_ne_true⟩

theorem locking_apart (state : State Data) (outside : holdsMain state.main = false)
    (away : holdsPush state.push = false) : Locking state :=
  locking_outside state outside fun holds => absurd (away.symm.trans holds) Bool.false_ne_true

theorem holdsPush_wake (push : Push Data) : holdsPush push.wake = holdsPush push := by
  cases push <;> rfl

theorem locking_main (state next : State Data) (captured : Captured Data)
    (locking : Locking state) (moved : mainStep state captured = some next) : Locking next := by
  cases mainStep_moves state next captured moved with
  | looping phase =>
      refine locking_outside _ ?_ locking.push
      cases state.running <;> rfl
  | capturing phase =>
      refine locking_outside _ ?_ locking.push
      cases captured <;> rfl
  | locking data size phase free => exact locking_away _ (locking.free free).2 fun _ => rfl
  | storing _ _ phase | sizing _ phase | raising phase =>
      exact ⟨fun _ => locking.main (by rw [phase]; rfl), locking.push⟩
  | signalling phase =>
      refine ⟨fun _ => locking.main (by rw [phase]; rfl), fun holds => ?_⟩
      exact locking.push (holdsPush_wake state.push ▸ holds)
  | unlocking phase => exact locking_apart _ rfl (locking.apart (by rw [phase]; rfl))
  | broadcasting phase =>
      exact locking_outside _ rfl fun holds => locking.push (holdsPush_wake state.push ▸ holds)
  | stopping phase | joining phase done => exact locking_outside _ rfl locking.push

theorem holdsPush_resume (copy : Option (Data × Nat)) : holdsPush (Push.resume copy) = false := by
  cases copy <;> rfl

theorem locking_push (state next : State Data) (allocated : Bool) (locking : Locking state)
    (moved : pushStep state allocated = some next) : Locking next := by
  -- With the lock in its hands, `push_thread` finds `main` outside.
  have outside : holdsPush state.push = true → holdsMain state.main = false := by
    intro push
    cases main : holdsMain state.main with
    | false => rfl
    | true => exact absurd ((locking.apart main).symm.trans push) Bool.false_ne_true
  cases pushStep_moves state next allocated moved with
  | looping phase =>
      refine locking_away _ ?_ locking.main
      cases state.running <;> rfl
  | locking phase free => exact locking_outside _ (locking.free free).1 fun _ => rfl
  | checking phase | deciding phase | sizing phase | copying _ phase | clearing _ phase =>
      exact ⟨locking.main, fun _ => locking.push (by rw [phase]; rfl)⟩
  | entering phase | leaving phase => exact locking_apart _ (outside (by rw [phase]; rfl)) rfl
  | unlocking copy phase =>
      exact locking_apart _ (outside (by rw [phase]; rfl)) (holdsPush_resume copy)
  | posting _ _ phase => exact locking_away _ rfl locking.main

theorem locking_step (state : State Data) (label : Label Data) (next : State Data)
    (locking : Locking state) (moved : FrameHandoff.step state label = some next) :
    Locking next := by
  cases label with
  | terminate =>
      cases moved
      exact ⟨locking.main, locking.push⟩
  | spurious =>
      simp only [FrameHandoff.step] at moved
      split at moved
      · cases moved
        exact locking_away _ rfl locking.main
      · cases moved
  | main captured => exact locking_main state next captured locking moved
  | push allocated => exact locking_push state next allocated locking moved

/-! ## The flag -/

/-- `push_thread` copies the frame: it has seen `ready` and not cleared it yet. -/
def grabs : Push Data → Bool
  | .sizing | .copying _ | .clearing _ => true
  | _ => false

structure Flagged (state : State Data) : Prop where
  deciding : state.push = .deciding → state.ready = true ∨ state.running = false
  entering : state.push = .entering → state.ready = false
  asleep : state.push = .asleep → state.ready = true → state.main = .signalling
  grabbing : grabs state.push = true → state.ready = true

/-- What `Flagged` asks for where `push_thread` stands. -/
def FlaggedAt (state : State Data) : Push Data → Prop
  | .deciding => state.ready = true ∨ state.running = false
  | .entering => state.ready = false
  | .asleep => state.ready = true → state.main = .signalling
  | .sizing | .copying _ | .clearing _ => state.ready = true
  | _ => True

theorem flagged_at (state : State Data) (push : Push Data) (phase : state.push = push)
    (held : FlaggedAt state push) : Flagged state where
  deciding := fun at' => by
    rw [← phase, at'] at held
    exact held
  entering := fun at' => by
    rw [← phase, at'] at held
    exact held
  asleep := fun at' => by
    rw [← phase, at'] at held
    exact held
  grabbing := fun at' => by
    rw [phase] at at'
    cases push <;> first | exact held | cases at'

theorem flagged_quiet (state next : State Data) (flagged : Flagged state)
    (push : next.push = state.push) (ready : next.ready = state.ready)
    (running : state.running = false → next.running = false)
    (quiet : state.main ≠ .signalling) : Flagged next := by
  refine ⟨fun phase => ?_, fun phase => ?_, fun phase raised => ?_, fun phase => ?_⟩
  · rw [ready]
    exact (flagged.deciding (push ▸ phase)).imp_right running
  · rw [ready]
    exact flagged.entering (push ▸ phase)
  · exact absurd (flagged.asleep (push ▸ phase) (ready ▸ raised)) quiet
  · rw [ready]
    exact flagged.grabbing (push ▸ phase)

theorem flagged_wake (state : State Data) (flagged : Flagged state) (main : Main Data) :
    Flagged { state with push := state.push.wake, main := main } := by
  cases phase : state.push with
  | deciding => exact flagged_at _ _ rfl (flagged.deciding phase)
  | entering => exact flagged_at _ _ rfl (flagged.entering phase)
  | sizing | copying _ | clearing _ =>
      exact flagged_at _ _ rfl (flagged.grabbing (by rw [phase]; rfl))
  | _ => exact flagged_at _ _ rfl trivial

theorem flagged_main (state next : State Data) (captured : Captured Data)
    (locking : Locking state) (flagged : Flagged state)
    (moved : mainStep state captured = some next) : Flagged next := by
  cases mainStep_moves state next captured moved with
  | raising phase =>
      have apart := locking.apart (by rw [phase]; rfl)
      refine ⟨fun _ => .inl rfl, fun entering => ?_, fun _ _ => rfl, fun _ => rfl⟩
      -- Under the lock of `main`, `push_thread` is not between its test and its wait.
      have entering : state.push = .entering := entering
      rw [entering] at apart
      cases apart
  | signalling phase | broadcasting phase => exact flagged_wake state flagged _
  | stopping phase => exact flagged_quiet state _ flagged rfl rfl (fun _ => rfl) (by simp [phase])
  | looping phase | capturing phase | locking _ _ phase | storing _ _ phase | sizing _ phase
  | unlocking phase | joining phase =>
      exact flagged_quiet state _ flagged rfl rfl id (by simp [phase])

theorem flagged_push (state next : State Data) (allocated : Bool) (flagged : Flagged state)
    (moved : pushStep state allocated = some next) : Flagged next := by
  cases pushStep_moves state next allocated moved with
  | looping phase => cases state.running <;> exact flagged_at _ _ rfl trivial
  | checking phase =>
      cases ready : state.ready <;> cases running : state.running
      · exact flagged_at _ .deciding rfl (.inr rfl)
      · exact flagged_at _ .entering rfl rfl
      · exact flagged_at _ .deciding rfl (.inl rfl)
      · exact flagged_at _ .deciding rfl (.inl rfl)
  | entering phase =>
      exact flagged_at _ .asleep rfl fun raised =>
        absurd ((flagged.entering phase).symm.trans raised) Bool.false_ne_true
  | deciding phase =>
      cases running : state.running with
      | true =>
          have ready : state.ready = true := by simpa [running] using flagged.deciding phase
          exact flagged_at _ .sizing rfl ready
      | false => exact flagged_at _ .leaving rfl trivial
  | sizing phase | copying size phase =>
      exact flagged_at _ _ rfl (flagged.grabbing (by rw [phase]; rfl))
  | unlocking copy phase => cases copy <;> exact flagged_at _ _ rfl trivial
  | locking _ _ | leaving _ | clearing _ _ | posting _ _ _ => exact flagged_at _ _ rfl trivial

theorem flagged_step (state : State Data) (label : Label Data) (next : State Data)
    (locking : Locking state) (flagged : Flagged state)
    (moved : FrameHandoff.step state label = some next) : Flagged next := by
  cases label with
  | terminate =>
      cases moved
      exact ⟨fun _ => .inr rfl, flagged.entering, flagged.asleep, flagged.grabbing⟩
  | spurious =>
      simp only [FrameHandoff.step] at moved
      split at moved <;> cases moved
      exact flagged_at _ _ rfl trivial
  | main captured => exact flagged_main state next captured locking flagged moved
  | push allocated => exact flagged_push state next allocated flagged moved

/-! ## The record -/

/-- `main` has stored a frame and not yet raised `ready`. -/
def stores : Main Data → Bool
  | .sizing _ | .raising => true
  | _ => false

/-- `push_thread` is copying the frame, or has copied it and not yet cleared `ready`. -/
def copies : Push Data → Bool
  | .copying _ | .clearing _ => true
  | _ => false

def copied : Push Data → Bool
  | .clearing _ => true
  | _ => false

/-- The latest publication has not been taken. -/
def Waiting (state : State Data) : Prop :=
  stores state.main = true ∨ state.ready = true ∧ copied state.push = false

/-- The buffer has the frame, up to the size that `main` is about to write. -/
def Holds (state : State Data) (frame : Data × Nat) : Prop :=
  state.data = some frame.1 ∧
    (state.main = .sizing frame.2 ∨ (∀ size, state.main ≠ .sizing size) ∧ state.size = frame.2)

def Take.of (taken : Take Data) (frame : Data × Nat) : Prop :=
  taken.data = some frame.1 ∧ taken.size = frame.2

structure Recorded (history : History Data) : Prop where
  stored : ∀ frame, history.published.getLast? = some frame → Holds history.state frame
  visible : history.state.ready = true ∨ stores history.state.main = true →
    history.published ≠ []
  sized : ∀ size, history.state.push = .copying size → size = history.state.size
  increasing : history.takes.Pairwise fun earlier later => earlier.serial < later.serial
  bounded : ∀ taken ∈ history.takes, taken.serial < history.published.length
  untaken : Waiting history.state →
    ∀ taken ∈ history.takes, taken.serial + 1 < history.published.length
  whole : ∀ taken ∈ history.takes, ∃ frame,
    history.published[taken.serial]? = some frame ∧ taken.of frame
  latest : history.published ≠ [] → Waiting history.state ∨
    ∃ taken ∈ history.takes, taken.serial + 1 = history.published.length

theorem stores_holds (main : Main Data) (storing : stores main = true) :
    holdsMain main = true := by
  cases main <;> first | rfl | cases storing

theorem copies_holds (push : Push Data) (copying : copies push = true) :
    holdsPush push = true := by
  cases push <;> first | rfl | cases copying

/-- Neither thread is, before or after, where it changes the buffer or the record. -/
structure Quiet (state next : State Data) : Prop where
  data : next.data = state.data
  size : next.size = state.size
  ready : next.ready = state.ready
  main : next.main = state.main ∨ stores state.main = false ∧ stores next.main = false
  push : next.push = state.push ∨ copies state.push = false ∧ copies next.push = false

theorem Quiet.stores_eq {state next : State Data} (quiet : Quiet state next) :
    stores next.main = stores state.main := by
  rcases quiet.main with same | ⟨before, after⟩
  · rw [same]
  · rw [before, after]

theorem not_copied (push : Push Data) (free : copies push = false) : copied push = false := by
  cases push <;> first | rfl | cases free

theorem Quiet.waiting_iff {state next : State Data} (quiet : Quiet state next) :
    Waiting next ↔ Waiting state := by
  have same : copied next.push = copied state.push := by
    rcases quiet.push with same | ⟨before, after⟩
    · rw [same]
    · rw [not_copied _ before, not_copied _ after]
  rw [Waiting, Waiting, quiet.stores_eq, quiet.ready, same]

theorem Quiet.holds {state next : State Data} (quiet : Quiet state next) (frame : Data × Nat)
    (held : Holds state frame) : Holds next frame := by
  refine ⟨quiet.data.trans held.1, ?_⟩
  rcases quiet.main with same | ⟨before, after⟩
  · rw [same, quiet.size]
    exact held.2
  · rcases held.2 with sizing | ⟨_, size⟩
    · rw [sizing] at before
      cases before
    · refine .inr ⟨fun size sizing => ?_, quiet.size.trans size⟩
      rw [sizing] at after
      cases after

theorem recorded_quiet (history : History Data) (next : State Data) (recorded : Recorded history)
    (quiet : Quiet history.state next) : Recorded { history with state := next } where
  stored := fun frame last => quiet.holds frame (recorded.stored frame last)
  visible := by
    intro visible
    apply recorded.visible
    rwa [← quiet.ready, ← quiet.stores_eq]
  sized := by
    intro size copying
    have copying : next.push = .copying size := copying
    rcases quiet.push with same | ⟨_, after⟩
    · exact (recorded.sized size (same ▸ copying)).trans quiet.size.symm
    · rw [copying] at after
      cases after
  increasing := recorded.increasing
  bounded := recorded.bounded
  untaken := fun waiting => recorded.untaken (quiet.waiting_iff.mp waiting)
  whole := recorded.whole
  latest := fun some' => (recorded.latest some').imp_left quiet.waiting_iff.mpr

theorem recorded_publish (history : History Data) (data : Data) (size : Nat)
    (recorded : Recorded history) (outside : copies history.state.push = false) :
    Recorded { history with
      state := { history.state with data := some data, main := .sizing size }
      published := history.published ++ [(data, size)] } where
  stored := by
    intro frame last
    cases Option.some.inj (List.getLast?_concat.symm.trans last)
    exact ⟨rfl, .inl rfl⟩
  visible := fun _ => List.concat_ne_nil _ _
  sized := by
    intro other copying
    have copying : history.state.push = .copying other := copying
    rw [copying] at outside
    cases outside
  increasing := recorded.increasing
  bounded := by
    intro taken member
    have bound := recorded.bounded taken member
    simp only [List.length_append, List.length_singleton]
    omega
  untaken := by
    intro _ taken member
    have bound := recorded.bounded taken member
    simp only [List.length_append, List.length_singleton]
    omega
  whole := by
    intro taken member
    obtain ⟨frame, at', same⟩ := recorded.whole taken member
    exact ⟨frame, List.getElem?_append_left (recorded.bounded taken member) ▸ at', same⟩
  latest := fun _ => .inl (.inl rfl)

theorem recorded_take (history : History Data) (size : Nat) (push : Push Data)
    (recorded : Recorded history) (copying : history.state.push = .copying size)
    (ready : history.state.ready = true) (outside : stores history.state.main = false)
    (after : copied push = true) :
    Recorded { history with
      state := { history.state with push := push }
      takes := history.takes ++
        [⟨history.published.length - 1, history.state.data, size⟩] } := by
  have some' := recorded.visible (.inl ready)
  have length := List.length_pos_of_ne_nil some'
  have untaken := recorded.untaken (.inr ⟨ready, by rw [copying]; rfl⟩)
  obtain ⟨frame, last⟩ : ∃ frame, history.published.getLast? = some frame :=
    ⟨_, List.getLast?_eq_some_getLast some'⟩
  obtain ⟨data, held⟩ := recorded.stored frame last
  -- The size was read under the lock, after the frame was stored.
  have whole : size = frame.2 := by
    rcases held with sizing | ⟨_, same⟩
    · rw [sizing] at outside
      cases outside
    · exact (recorded.sized size copying).trans same
  -- The flag is cleared before the lock is given back, so nothing waits any more.
  have taken' : ¬ Waiting { history.state with push := push } := by
    rintro (storing | ⟨_, free⟩)
    · exact nomatch outside.symm.trans storing
    · exact nomatch after.symm.trans free
  refine ⟨recorded.stored, recorded.visible, ?_, ?_, ?_, fun waiting => absurd waiting taken', ?_,
    fun _ => .inr ⟨_, List.mem_append_right _ List.mem_cons_self, by simp only; omega⟩⟩
  · intro other next
    have next : push = .copying other := next
    rw [next] at after
    cases after
  · refine List.pairwise_append.mpr ⟨recorded.increasing, List.pairwise_singleton _ _, ?_⟩
    intro earlier member later new
    rw [List.mem_singleton.mp new]
    have before := untaken earlier member
    simp only
    omega
  · intro taken member
    rcases List.mem_append.mp member with earlier | new
    · exact recorded.bounded taken earlier
    · rw [List.mem_singleton.mp new]
      simp only
      omega
  · intro taken member
    rcases List.mem_append.mp member with earlier | new
    · exact recorded.whole taken earlier
    · rw [List.mem_singleton.mp new]
      exact ⟨frame, List.getLast?_eq_getElem?.symm.trans last, data, whole⟩

theorem copies_wake (push : Push Data) :
    push.wake = push ∨ copies push = false ∧ copies push.wake = false := by
  cases push <;> first | exact .inl rfl | exact .inr ⟨rfl, rfl⟩

theorem recorded_size (history : History Data) (size : Nat) (recorded : Recorded history)
    (sizing : history.state.main = .sizing size) (outside : copies history.state.push = false) :
    Recorded { history with state := { history.state with size := size, main := .raising } } where
  stored := by
    intro frame last
    obtain ⟨data, held⟩ := recorded.stored frame last
    rcases held with same | ⟨other, _⟩
    · rw [sizing] at same
      cases same
      exact ⟨data, .inr ⟨nofun, rfl⟩⟩
    · exact absurd sizing (other size)
  visible := fun _ => recorded.visible (.inr (by rw [sizing]; rfl))
  sized := by
    intro other copying
    have copying : history.state.push = .copying other := copying
    rw [copying] at outside
    cases outside
  increasing := recorded.increasing
  bounded := recorded.bounded
  untaken := fun _ => recorded.untaken (.inl (by rw [sizing]; rfl))
  whole := recorded.whole
  latest := fun _ => .inl (.inl rfl)

theorem recorded_raise (history : History Data) (recorded : Recorded history)
    (raising : history.state.main = .raising) (outside : copies history.state.push = false) :
    Recorded { history with
      state := { history.state with ready := true, main := .signalling } } where
  stored := by
    intro frame last
    obtain ⟨data, held⟩ := recorded.stored frame last
    rcases held with same | ⟨_, size⟩
    · rw [raising] at same
      cases same
    · exact ⟨data, .inr ⟨nofun, size⟩⟩
  visible := fun _ => recorded.visible (.inr (by rw [raising]; rfl))
  sized := by
    intro other copying
    exact recorded.sized other copying
  increasing := recorded.increasing
  bounded := recorded.bounded
  untaken := fun _ => recorded.untaken (.inl (by rw [raising]; rfl))
  whole := recorded.whole
  latest := fun _ => .inl (.inr ⟨rfl, not_copied _ outside⟩)

theorem recorded_reads (history : History Data) (recorded : Recorded history)
    (sizing : history.state.push = .sizing) :
    Recorded { history with
      state := { history.state with push := .copying history.state.size } } := by
  have same : Waiting { history.state with push := .copying history.state.size } ↔
      Waiting history.state := by
    rw [Waiting, Waiting, sizing]
    rfl
  exact {
    stored := recorded.stored
    visible := recorded.visible
    sized := fun _ copying => (Push.copying.inj copying).symm
    increasing := recorded.increasing
    bounded := recorded.bounded
    untaken := fun waiting => recorded.untaken (same.mp waiting)
    whole := recorded.whole
    latest := fun some' => (recorded.latest some').imp_left same.mpr }

theorem recorded_clear (history : History Data) (copy : Option (Data × Nat))
    (recorded : Recorded history) (clearing : history.state.push = .clearing copy)
    (outside : stores history.state.main = false) :
    Recorded { history with
      state := { history.state with ready := false, push := .unlocking copy } } where
  stored := recorded.stored
  visible := by
    rintro (ready | storing)
    · cases ready
    · exact nomatch outside.symm.trans storing
  sized := nofun
  increasing := recorded.increasing
  bounded := recorded.bounded
  untaken := by
    rintro (storing | ⟨ready, _⟩)
    · exact nomatch outside.symm.trans storing
    · cases ready
  whole := recorded.whole
  latest := by
    intro some'
    rcases recorded.latest some' with (storing | ⟨_, free⟩) | taken
    · exact nomatch outside.symm.trans storing
    · rw [clearing] at free
      cases free
    · exact .inr taken

theorem recorded_main (history : History Data) (next : State Data) (captured : Captured Data)
    (locking : Locking history.state) (recorded : Recorded history)
    (moved : mainStep history.state captured = some next) :
    Recorded { history with state := next, published := publish history } := by
  -- The lock keeps `push_thread` from copying while `main` holds it.
  have outside : holdsMain history.state.main = true → copies history.state.push = false := by
    intro holds
    cases copying : copies history.state.push with
    | false => rfl
    | true => exact nomatch (locking.apart holds).symm.trans (copies_holds _ copying)
  cases mainStep_moves history.state next captured moved with
  | storing data size phase =>
      simp only [publish, phase]
      exact recorded_publish history data size recorded (outside (by rw [phase]; rfl))
  | sizing size phase =>
      simp only [publish, phase]
      exact recorded_size history size recorded phase (outside (by rw [phase]; rfl))
  | raising phase =>
      simp only [publish, phase]
      exact recorded_raise history recorded phase (outside (by rw [phase]; rfl))
  | signalling phase | broadcasting phase =>
      simp only [publish, phase]
      exact recorded_quiet history _ recorded
        ⟨rfl, rfl, rfl, .inr ⟨by rw [phase]; rfl, rfl⟩, copies_wake history.state.push⟩
  | looping phase =>
      simp only [publish, phase]
      refine recorded_quiet history _ recorded
        ⟨rfl, rfl, rfl, .inr ⟨by rw [phase]; rfl, ?_⟩, .inl rfl⟩
      cases history.state.running <;> rfl
  | capturing phase =>
      simp only [publish, phase]
      refine recorded_quiet history _ recorded
        ⟨rfl, rfl, rfl, .inr ⟨by rw [phase]; rfl, ?_⟩, .inl rfl⟩
      cases captured <;> rfl
  | locking _ _ phase free | joining phase done | unlocking phase | stopping phase =>
      simp only [publish, phase]
      exact recorded_quiet history _ recorded
        ⟨rfl, rfl, rfl, .inr ⟨by rw [phase]; rfl, rfl⟩, .inl rfl⟩

theorem recorded_push (history : History Data) (next : State Data) (allocated : Bool)
    (locking : Locking history.state) (flagged : Flagged history.state)
    (recorded : Recorded history) (moved : pushStep history.state allocated = some next) :
    Recorded { history with state := next, takes := take history } := by
  have outside : holdsPush history.state.push = true → stores history.state.main = false := by
    intro holds
    cases storing : stores history.state.main with
    | false => rfl
    | true => exact nomatch (locking.apart (stores_holds _ storing)).symm.trans holds
  cases pushStep_moves history.state next allocated moved with
  | sizing phase =>
      simp only [take, phase]
      exact recorded_reads history recorded phase
  | copying size phase =>
      have out := outside (by rw [phase]; rfl)
      -- It copies only after it has seen `ready`.
      have ready := flagged.grabbing (by rw [phase]; rfl)
      simp only [take, phase]
      exact recorded_take history size _ recorded phase ready out rfl
  | clearing copy phase =>
      simp only [take, phase]
      exact recorded_clear history copy recorded phase (outside (by rw [phase]; rfl))
  | looping phase | checking phase | deciding phase =>
      simp only [take, phase]
      refine recorded_quiet history _ recorded
        ⟨rfl, rfl, rfl, .inl rfl, .inr ⟨by rw [phase]; rfl, ?_⟩⟩
      simp only
      split <;> rfl
  | locking phase free =>
      rcases phase with phase | phase
      all_goals
        simp only [take, phase]
        exact recorded_quiet history _ recorded
          ⟨rfl, rfl, rfl, .inl rfl, .inr ⟨by rw [phase]; rfl, rfl⟩⟩
  | unlocking copy phase =>
      simp only [take, phase]
      refine recorded_quiet history _ recorded
        ⟨rfl, rfl, rfl, .inl rfl, .inr ⟨by rw [phase]; rfl, ?_⟩⟩
      cases copy <;> rfl
  | entering phase | leaving phase | posting _ _ phase =>
      simp only [take, phase]
      exact recorded_quiet history _ recorded
        ⟨rfl, rfl, rfl, .inl rfl, .inr ⟨by rw [phase]; rfl, rfl⟩⟩

/-! ## Whole runs -/

structure Sound (history : History Data) : Prop where
  locking : Locking history.state
  flagged : Flagged history.state
  recorded : Recorded history

theorem sound_step (history : History Data) (label : Label Data) (next : History Data)
    (sound : Sound history) (moved : step history label = some next) : Sound next := by
  simp only [step, Option.map_eq_some_iff] at moved
  obtain ⟨state, went, rfl⟩ := moved
  have locking := locking_step history.state label state sound.locking went
  have flagged := flagged_step history.state label state sound.locking sound.flagged went
  cases label with
  | terminate =>
      cases went
      exact ⟨locking, flagged, recorded_quiet history _ sound.recorded
        ⟨rfl, rfl, rfl, .inl rfl, .inl rfl⟩⟩
  | spurious =>
      simp only [FrameHandoff.step] at went
      split at went
      · next asleep =>
        cases went
        exact ⟨locking, flagged, recorded_quiet history _ sound.recorded
          ⟨rfl, rfl, rfl, .inl rfl, .inr ⟨by rw [asleep]; rfl, rfl⟩⟩⟩
      · cases went
  | main captured =>
      exact ⟨locking, flagged,
        recorded_main history state captured sound.locking sound.recorded went⟩
  | push allocated =>
      exact ⟨locking, flagged, recorded_push history state allocated sound.locking sound.flagged
        sound.recorded went⟩

theorem sound_reachable (history : History Data) (reached : Reachable step Starts history) :
    Sound history := by
  apply reachable_invariant step Starts Sound _ sound_step history reached
  rintro _ rfl
  refine ⟨⟨nofun, nofun⟩, ⟨nofun, nofun, nofun, nofun⟩, ?_⟩
  exact ⟨nofun, nofun, nofun, .nil, nofun, nofun, nofun, fun some' => absurd rfl some'⟩

/-- The buffer has the frame, which waits for `push_thread` or is still being stored. -/
def Pending (state : State Data) (frame : Data × Nat) : Prop :=
  Holds state frame ∧ Waiting state

/-- The frames that `push_thread` takes, against those that `main` publishes. -/
structure HandedOver (history : History Data) : Prop where
  ordered : history.takes.Pairwise fun earlier later => earlier.serial < later.serial
  whole : ∀ taken ∈ history.takes, ∃ frame,
    history.published[taken.serial]? = some frame ∧ taken.of frame
  accounted : ∀ serial frame, history.published[serial]? = some frame →
    (∃ taken ∈ history.takes, taken.serial = serial) ∨
      serial + 1 < history.published.length ∨ Pending history.state frame
  signalled : history.state.ready = true → history.state.push = .asleep →
    history.state.main = .signalling

/-- Only the signal of the same critical section can still be outstanding when a
frame is ready and `push_thread` sleeps. -/
theorem frames_handed_over (history : History Data) (reached : Reachable step Starts history) :
    HandedOver history := by
  obtain ⟨_, flagged, recorded⟩ := sound_reachable history reached
  refine ⟨recorded.increasing, recorded.whole, ?_, fun ready asleep =>
    flagged.asleep asleep ready⟩
  intro serial frame located
  have inside := (List.getElem?_eq_some_iff.mp located).1
  by_cases later : serial + 1 < history.published.length
  · exact .inr (.inl later)
  · have final : serial = history.published.length - 1 := by omega
    have last : history.published.getLast? = some frame := by
      rw [List.getLast?_eq_getElem?, ← final, located]
    rcases recorded.latest (List.ne_nil_of_length_pos (by omega)) with
      waiting | ⟨taken, member, at'⟩
    · exact .inr (.inr ⟨recorded.stored frame last, waiting⟩)
    · exact .inl ⟨taken, member, by omega⟩

/-- Two frames are published before the second is taken. -/
def overwritten : List (Label Nat) :=
  (List.replicate 8 (.main (.frame 7 1)) ++ List.replicate 6 (.main (.frame 8 2))) ++
    List.replicate 2 (.main .nothing) ++ List.replicate 7 (.push true)

theorem frames_handed_over_overwritten :
    ∃ history, exec step ⟨FrameHandoff.initial, [], []⟩ overwritten = some history ∧
      history.published = [(7, 1), (8, 2)] ∧
      history.takes.map Take.serial = [1] ∧ HandedOver history :=
  ⟨_, rfl, rfl, rfl, frames_handed_over _ ⟨_, overwritten, rfl, rfl⟩⟩

/-- `push_thread` goes to sleep, then a frame is published up to the signal. -/
def unsignalled : List (Label Nat) :=
  List.replicate 4 (.push true) ++ List.replicate 6 (.main (.frame 7 1))

theorem frames_unsignalled :
    ¬ ∀ history : History Nat, Reachable step Starts history → history.state.running = true →
      ¬ (history.state.ready = true ∧ history.state.push = .asleep) := by
  intro always
  exact always _ ⟨_, unsignalled, rfl, rfl⟩ rfl ⟨rfl, rfl⟩

end SensorNode.FrameHistory
