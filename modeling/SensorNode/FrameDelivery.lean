import SensorNode.FrameHistory
import SensorNode.FrameLedger

/-!
camera-stream as a whole: the two threads around `frame_buf`, and what `push_thread` does with a
frame it has taken. A frame is published once and then is in one place only, from the buffer to the
server, to a file or to where it is given up.
-/

namespace SensorNode.FrameDelivery

open StepSystem FrameHandoff FrameHistory FrameStore FrameLedger

universe u
variable {Data : Type u}

/-- `discarded` has the publications overwritten in the buffer, `earlier` is the number of frames
that older runs have left in the directory. -/
structure System (Data : Type u) where
  history : History Data
  discarded : List Nat
  spool : Spool
  earlier : Nat

def Starts (sys : System Data) : Prop :=
  FrameHistory.Starts sys.history ∧ sys.discarded = [] ∧ FrameLedger.Starts sys.spool ∧
    sys.earlier = sys.spool.taken

/-- A step of the threads up to the unlock, or the rest of one pass of `push_thread`. -/
inductive Label (Data : Type u) where
  | hand (label : FrameHandoff.Label Data)
  | pass (pass : Pass)

def copyOf : Push Data → Option (Option (Data × Nat))
  | .clearing copy | .unlocking copy => some copy
  | .posting data size => some (some (data, size))
  | _ => none

def passes : Push Data → Option Bool
  | .unlocking none => some false
  | .posting _ _ => some true
  | _ => none

def discard (history : History Data) (discarded : List Nat) : List Nat :=
  match history.state.main with
  | .storing _ _ =>
      if history.state.ready then discarded ++ [history.published.length - 1] else discarded
  | _ => discarded

def step (sys : System Data) : Label Data → Option (System Data)
  | .hand (.push allocated) =>
      if passes sys.history.state.push = none then
        (FrameHistory.step sys.history (.push allocated)).map fun next =>
          { sys with history := next }
      else none
  | .hand (.main captured) =>
      (FrameHistory.step sys.history (.main captured)).map fun next =>
        { sys with history := next, discarded := discard sys.history sys.discarded }
  | .hand .terminate =>
      (FrameHistory.step sys.history .terminate).map fun next => { sys with history := next }
  | .hand .spurious =>
      (FrameHistory.step sys.history .spurious).map fun next => { sys with history := next }
  | .pass pass =>
      if passes sys.history.state.push = some pass.copied then
        (FrameHistory.step sys.history (.push true)).bind fun next =>
          (pushThread sys.spool pass).map fun spool => { sys with history := next, spool := spool }
      else none

def DistinctReadings (sys : System Data) : Label Data → Prop
  | .pass pass => FrameLedger.DistinctReadings sys.spool pass
  | .hand _ => True

instance (sys : System Data) (label : Label Data) : Decidable (DistinctReadings sys label) := by
  unfold DistinctReadings
  split <;> infer_instance

instance (state : State Data) : Decidable (Waiting state) :=
  inferInstanceAs (Decidable (_ ∨ _ ∧ _))

def waiting (history : History Data) : List Nat :=
  if Waiting history.state then [history.published.length - 1] else []

/-! ## The threads -/

/-- Every publication has been overwritten, taken, or waits in the buffer. -/
def Shared (history : History Data) (discarded : List Nat) : Prop :=
  (discarded ++ history.takes.map Take.serial ++ waiting history).Perm
    (List.range history.published.length)

/-- What `push_thread` has copied is the frame it took last. -/
def Carried (history : History Data) : Prop :=
  ∀ copy, copyOf history.state.push = some copy →
    ∃ taken, history.takes.getLast? = some taken ∧ ∀ frame ∈ copy, taken.of frame

theorem waiting_congr (state next : State Data) (storing : stores next.main = stores state.main)
    (ready : next.ready = state.ready) (copying : copied next.push = copied state.push) :
    Waiting next ↔ Waiting state := by
  rw [Waiting, Waiting, storing, ready, copying]

theorem shared_quiet (history : History Data) (next : State Data) (discarded : List Nat)
    (shared : Shared history discarded) (same : Waiting next ↔ Waiting history.state) :
    Shared { history with state := next } discarded := by
  simp only [Shared, waiting, same]
  exact shared

theorem copied_wake (push : Push Data) : copied push.wake = copied push := by
  cases push <;> rfl

theorem copyOf_wake (push : Push Data) : copyOf push.wake = copyOf push := by
  cases push <;> rfl

theorem carried_quiet (history : History Data) (next : State Data) (carried : Carried history)
    (copy : copyOf next.push = copyOf history.state.push) :
    Carried { history with state := next } := by
  rw [Carried, copy]
  exact carried

theorem carried_none (history : History Data) (free : copyOf history.state.push = none) :
    Carried history := by
  intro copy has
  rw [free] at has
  cases has

theorem shared_publish (history : History Data) (data : Data) (size : Nat) (discarded : List Nat)
    (sound : Sound history) (shared : Shared history discarded)
    (storing : history.state.main = .storing data size) :
    Shared { history with
      state := { history.state with data := some data, main := .sizing size }
      published := history.published ++ [(data, size)] } (discard history discarded) := by
  have after : Waiting { history.state with data := some data, main := .sizing size } := .inl rfl
  have apart := sound.locking.apart (by rw [storing]; rfl)
  have notCopied : copied history.state.push = false := by
    cases push : history.state.push <;> first | rfl | (rw [push] at apart; cases apart)
  have before : Waiting history.state ↔ history.state.ready = true := by
    simp [Waiting, storing, stores, notCopied]
  simp only [Shared, waiting, before, after, if_true, discard, storing, List.length_append,
    List.length_singleton, Nat.add_sub_cancel, List.range_succ] at shared ⊢
  refine List.Perm.append_right _ ?_
  split at shared
  · next ready =>
    rw [if_pos ready, List.append_assoc]
    exact (List.perm_append_comm.append_left _).trans (List.append_assoc .. ▸ shared)
  · next ready =>
    rw [if_neg ready]
    rwa [List.append_nil] at shared

theorem shared_take (history : History Data) (size : Nat) (push : Push Data)
    (discarded : List Nat) (sound : Sound history) (shared : Shared history discarded)
    (copying : history.state.push = .copying size) (after : copied push = true) :
    Shared { history with
      state := { history.state with push := push }
      takes := history.takes ++
        [⟨history.published.length - 1, history.state.data, size⟩] } discarded := by
  have outside : stores history.state.main = false := by
    cases storing : stores history.state.main with
    | false => rfl
    | true =>
        have apart := sound.locking.apart (stores_holds _ storing)
        rw [copying] at apart
        cases apart
  have ready := sound.flagged.grabbing (by rw [copying]; rfl)
  have before : Waiting history.state := .inr ⟨ready, by rw [copying]; rfl⟩
  have taken : ¬ Waiting { history.state with push := push } := by
    simp [Waiting, outside, after]
  simp only [Shared, waiting, before, taken, if_true, if_false, List.map_append, List.map_cons,
    List.map_nil, List.append_nil] at shared ⊢
  rw [← List.append_assoc]
  exact shared

theorem threads_main (history : History Data) (next : State Data) (captured : Captured Data)
    (discarded : List Nat) (sound : Sound history) (shared : Shared history discarded)
    (carried : Carried history) (moved : mainStep history.state captured = some next) :
    Shared { history with state := next, published := publish history }
        (discard history discarded) ∧
      Carried { history with state := next, published := publish history } := by
  cases mainStep_moves history.state next captured moved with
  | storing data size phase =>
      have grown := shared_publish history data size discarded sound shared phase
      simp only [publish, phase]
      exact ⟨grown, carried⟩
  | raising phase =>
      have apart := sound.locking.apart (by rw [phase]; rfl)
      -- `main` holds the lock, so `push_thread` is not between its copy and its unlock.
      have notCopied : copied history.state.push = false := by
        cases push : history.state.push <;> first | rfl | (rw [push] at apart; cases apart)
      simp only [publish, discard, phase]
      refine ⟨shared_quiet history _ discarded shared ?_, carried_quiet history _ carried rfl⟩
      simp [Waiting, phase, stores, notCopied]
  | signalling phase | broadcasting phase =>
      simp only [publish, discard, phase]
      exact ⟨shared_quiet history _ discarded shared
          (waiting_congr _ _ (by rw [phase]; rfl) rfl (copied_wake _)),
        carried_quiet history _ carried (copyOf_wake _)⟩
  | looping phase =>
      simp only [publish, discard, phase]
      refine ⟨shared_quiet history _ discarded shared (waiting_congr _ _ ?_ rfl rfl),
        carried_quiet history _ carried rfl⟩
      rw [phase]
      cases history.state.running <;> rfl
  | capturing phase =>
      simp only [publish, discard, phase]
      refine ⟨shared_quiet history _ discarded shared (waiting_congr _ _ ?_ rfl rfl),
        carried_quiet history _ carried rfl⟩
      rw [phase]
      cases captured <;> rfl
  | locking _ _ phase | sizing _ phase | unlocking phase | stopping phase | joining phase =>
      simp only [publish, discard, phase]
      exact ⟨shared_quiet history _ discarded shared
          (waiting_congr _ _ (by rw [phase]; rfl) rfl rfl),
        carried_quiet history _ carried rfl⟩

theorem threads_push (history : History Data) (next : State Data) (allocated : Bool)
    (discarded : List Nat) (sound : Sound history) (shared : Shared history discarded)
    (carried : Carried history) (moved : pushStep history.state allocated = some next) :
    Shared { history with state := next, takes := take history } discarded ∧
      Carried { history with state := next, takes := take history } := by
  -- The lock keeps `main` from storing while `push_thread` copies.
  have away : holdsPush history.state.push = true → stores history.state.main = false := by
    intro holds
    cases storing : stores history.state.main with
    | false => rfl
    | true => exact nomatch (sound.locking.apart (stores_holds _ storing)).symm.trans holds
  cases pushStep_moves history.state next allocated moved with
  | copying size phase =>
      have taken := shared_take history size
        (.clearing (if allocated then history.state.data.map fun data => (data, size) else none))
        discarded sound shared phase rfl
      simp only [take, phase]
      refine ⟨taken, fun copy has => ⟨_, List.getLast?_concat, fun frame member => ?_⟩⟩
      obtain rfl := Option.some.inj has
      cases allocated with
      | false => cases member
      | true =>
          obtain ⟨data, held, rfl⟩ := Option.map_eq_some_iff.mp member
          exact ⟨held, rfl⟩
  | clearing copy phase =>
      have outside := away (by rw [phase]; rfl)
      simp only [take, phase]
      refine ⟨shared_quiet history _ discarded shared ?_,
        carried_quiet history _ carried (by rw [phase]; rfl)⟩
      simp [Waiting, phase, outside, copied]
  | unlocking copy phase =>
      simp only [take, phase]
      cases copy with
      | none =>
          exact ⟨shared_quiet history _ discarded shared
            (waiting_congr _ _ rfl rfl (by rw [phase]; rfl)), carried_none _ rfl⟩
      | some copy =>
          exact ⟨shared_quiet history _ discarded shared
              (waiting_congr _ _ rfl rfl (by rw [phase]; rfl)),
            carried_quiet history _ carried (by rw [phase]; rfl)⟩
  | looping phase | checking phase | deciding phase =>
      simp only [take, phase]
      refine ⟨shared_quiet history _ discarded shared (waiting_congr _ _ rfl rfl ?_),
        carried_none _ ?_⟩
      all_goals
        simp only [phase]
        split <;> rfl
  | locking phase =>
      rcases phase with phase | phase
      all_goals
        simp only [take, phase]
        exact ⟨shared_quiet history _ discarded shared
          (waiting_congr _ _ rfl rfl (by rw [phase]; rfl)), carried_none _ rfl⟩
  | sizing phase | entering phase | leaving phase | posting _ _ phase =>
      simp only [take, phase]
      exact ⟨shared_quiet history _ discarded shared
        (waiting_congr _ _ rfl rfl (by rw [phase]; rfl)), carried_none _ rfl⟩

theorem push_counted (history : History Data) (next : State Data) (allocated : Bool)
    (inside : passes history.state.push = none)
    (moved : pushStep history.state allocated = some next) :
    (take history).length + (copyOf history.state.push).toList.length =
      history.takes.length + (copyOf next.push).toList.length := by
  cases pushStep_moves history.state next allocated moved with
  | copying size phase =>
      simp only [take, phase, List.length_append]
      rfl
  | unlocking copy phase =>
      cases copy with
      | none =>
          rw [phase] at inside
          cases inside
      | some copy => simp only [take, phase, copyOf, Push.resume]
  | posting data size phase =>
      rw [phase] at inside
      cases inside
  | looping phase | checking phase | deciding phase =>
      simp only [take, phase]
      split <;> rfl
  | locking phase => rcases phase with phase | phase <;> (simp only [take, phase]; rfl)
  | sizing phase | entering phase | leaving phase | clearing _ phase =>
      simp only [take, phase]
      rfl

theorem pass_counted (history : History Data) (next : State Data) (allocated copied : Bool)
    (through : passes history.state.push = some copied)
    (moved : pushStep history.state allocated = some next) :
    take history = history.takes ∧ (copyOf history.state.push).toList.length = 1 ∧
      copyOf next.push = none := by
  cases phase : history.state.push with
  | unlocking copy =>
      cases copy with
      | none =>
          simp only [pushStep, phase, Option.some.injEq] at moved
          subst moved
          exact ⟨by simp only [take, phase], rfl, rfl⟩
      | some copy =>
          rw [phase] at through
          cases through
  | posting data size =>
      simp only [pushStep, phase, Option.some.injEq] at moved
      subst moved
      exact ⟨by simp only [take, phase], rfl, rfl⟩
  | _ =>
      rw [phase] at through
      cases through

theorem pushThread_taken (spool next : Spool) (pass : Pass)
    (moved : pushThread spool pass = some next) : next.taken = spool.taken + 1 := by
  unfold pushThread at moved
  simp only at moved
  split at moved
  · cases moved
    rfl
  · split at moved
    · split at moved <;> cases moved
      rfl
    · split at moved
      · split at moved <;> cases moved
        rfl
      · cases moved
        rfl

theorem ended_step (state next : State Data) (label : FrameHandoff.Label Data)
    (ended : state.main = .ended → state.push = .done)
    (moved : FrameHandoff.step state label = some next) :
    next.main = .ended → next.push = .done := by
  cases label with
  | terminate =>
      cases moved
      exact ended
  | spurious =>
      simp only [FrameHandoff.step] at moved
      split at moved
      · next asleep =>
        cases moved
        intro atEnd
        rw [ended atEnd] at asleep
        cases asleep
      · cases moved
  | main captured =>
      intro atEnd
      cases mainStep_moves state next captured moved with
      | joining phase done => exact done
      | looping phase =>
          simp only at atEnd
          split at atEnd <;> cases atEnd
      | capturing phase => cases captured <;> cases atEnd
      | _ => cases atEnd
  | push allocated =>
      have same : next.main = state.main := by
        cases pushStep_moves state next allocated moved <;> rfl
      intro atEnd
      have moved : pushStep state allocated = some next := moved
      simp only [pushStep, ended (same ▸ atEnd)] at moved
      cases moved

/-! ## Whole runs -/

structure Accounted (sys : System Data) : Prop where
  sound : Sound sys.history
  kept : Kept sys.spool
  shared : Shared sys.history sys.discarded
  carried : Carried sys.history
  counted : sys.spool.taken + (copyOf sys.history.state.push).toList.length =
    sys.earlier + sys.history.takes.length
  ended : sys.history.state.main = .ended → sys.history.state.push = .done

theorem accounted_initial (sys : System Data) (starts : Starts sys) : Accounted sys := by
  obtain ⟨history, discarded, spool, earlier⟩ := sys
  obtain ⟨rfl, rfl, ⟨distinct, named, numbered, posts, evicted, dropped⟩, same⟩ := starts
  have same : earlier = spool.taken := same
  subst same
  refine ⟨sound_reachable _ ⟨_, [], rfl, rfl⟩, ⟨distinct, named, ?_⟩, .refl _, nofun, rfl, nofun⟩
  rw [Conserved, posts, evicted, dropped]
  simpa [postedFrames] using numbered

theorem accounted_hand (sys : System Data) (label : FrameHandoff.Label Data) (next : System Data)
    (accounted : Accounted sys) (moved : step sys (.hand label) = some next) : Accounted next := by
  obtain ⟨sound, kept, shared, carried, counted, ended⟩ := accounted
  have followed (history : History Data)
      (went : FrameHistory.step sys.history label = some history) :
      Sound history ∧ (history.state.main = .ended → history.state.push = .done) := by
    refine ⟨sound_step sys.history label history sound went, ?_⟩
    obtain ⟨state, inner, rfl⟩ := Option.map_eq_some_iff.mp went
    have later := ended_step _ state label ended inner
    cases label <;> exact later
  -- The ledger moves with the passes only; here the threads do.
  cases label with
  | terminate =>
      cases moved
      obtain ⟨soundAfter, endedAfter⟩ := followed _ rfl
      exact ⟨soundAfter, kept, shared_quiet _ _ _ shared (waiting_congr _ _ rfl rfl rfl),
        carried_quiet _ _ carried rfl, counted, endedAfter⟩
  | spurious =>
      obtain ⟨history, went, rfl⟩ := Option.map_eq_some_iff.mp moved
      obtain ⟨soundAfter, endedAfter⟩ := followed history went
      obtain ⟨state, inner, rfl⟩ := Option.map_eq_some_iff.mp went
      simp only [FrameHandoff.step] at inner
      split at inner
      · next asleep =>
        cases inner
        refine ⟨soundAfter, kept,
          shared_quiet _ _ _ shared (waiting_congr _ _ rfl rfl (by rw [asleep]; rfl)),
          carried_none _ rfl, ?_, endedAfter⟩
        rw [asleep] at counted
        exact counted
      · cases inner
  | main captured =>
      obtain ⟨history, went, rfl⟩ := Option.map_eq_some_iff.mp moved
      obtain ⟨soundAfter, endedAfter⟩ := followed history went
      obtain ⟨state, inner, rfl⟩ := Option.map_eq_some_iff.mp went
      obtain ⟨sharedAfter, carriedAfter⟩ :=
        threads_main sys.history state captured sys.discarded sound shared carried inner
      refine ⟨soundAfter, kept, sharedAfter, carriedAfter, ?_, endedAfter⟩
      have same : copyOf state.push = copyOf sys.history.state.push := by
        cases mainStep_moves sys.history.state state captured inner with
        | signalling | broadcasting => exact copyOf_wake _
        | _ => rfl
      simp only [same]
      exact counted
  | push allocated =>
      simp only [step] at moved
      split at moved
      · next inside =>
        obtain ⟨history, went, rfl⟩ := Option.map_eq_some_iff.mp moved
        obtain ⟨soundAfter, endedAfter⟩ := followed history went
        obtain ⟨state, inner, rfl⟩ := Option.map_eq_some_iff.mp went
        obtain ⟨sharedAfter, carriedAfter⟩ :=
          threads_push sys.history state allocated sys.discarded sound shared carried inner
        refine ⟨soundAfter, kept, sharedAfter, carriedAfter, ?_, endedAfter⟩
        have grown := push_counted sys.history state allocated inside inner
        simp only
        omega
      · cases moved

theorem accounted_pass (sys : System Data) (pass : Pass) (next : System Data)
    (accounted : Accounted sys) (distinct : FrameLedger.DistinctReadings sys.spool pass)
    (moved : step sys (.pass pass) = some next) : Accounted next := by
  obtain ⟨sound, kept, shared, carried, counted, ended⟩ := accounted
  simp only [step] at moved
  split at moved
  · next through =>
    obtain ⟨history, went, moved⟩ := Option.bind_eq_some_iff.mp moved
    obtain ⟨spool, passed, rfl⟩ := Option.map_eq_some_iff.mp moved
    have soundAfter := sound_step sys.history _ history sound went
    obtain ⟨state, inner, rfl⟩ := Option.map_eq_some_iff.mp went
    obtain ⟨sharedAfter, carriedAfter⟩ :=
      threads_push sys.history state true sys.discarded sound shared carried inner
    refine ⟨soundAfter, kept_pass sys.spool pass spool kept distinct passed, sharedAfter,
      carriedAfter, ?_, ended_step _ state _ ended inner⟩
    obtain ⟨takes, held, free⟩ := pass_counted sys.history state true _ through inner
    have taken := pushThread_taken sys.spool spool pass passed
    simp only [takes, free, Option.toList_none, List.length_nil]
    omega
  · cases moved

theorem accounted_step (sys : System Data) (label : Label Data) (next : System Data)
    (accounted : Accounted sys) (distinct : DistinctReadings sys label)
    (moved : step sys label = some next) : Accounted next := by
  cases label with
  | hand label => exact accounted_hand sys label next accounted moved
  | pass pass => exact accounted_pass sys pass next accounted distinct moved

/-- The publication that a number of the ledger stands for; those of older runs have none. -/
def serialOf (sys : System Data) (number : Nat) : Option Nat :=
  if number < sys.earlier then none
  else sys.history.takes[number - sys.earlier]?.map Take.serial

def publications (sys : System Data) (numbers : List Nat) : List Nat :=
  numbers.filterMap (serialOf sys)

def inHand (history : History Data) : List Nat :=
  match copyOf history.state.push with
  | none => []
  | some _ => (history.takes.getLast?.map Take.serial).toList

theorem publications_taken (sys : System Data) (count : Nat) :
    publications sys (List.range (sys.earlier + count)) =
      (sys.history.takes.take count).map Take.serial := by
  induction count with
  | zero =>
      refine List.filterMap_eq_nil_iff.mpr fun number member => ?_
      exact if_pos (List.mem_range.mp member)
  | succ count ih =>
      have here : serialOf sys (sys.earlier + count) =
          sys.history.takes[count]?.map Take.serial := by
        rw [serialOf, if_neg (by omega), Nat.add_sub_cancel_left]
      rw [← Nat.add_assoc, List.range_succ, publications, List.filterMap_append,
        ← publications, ih, List.take_add_one, List.map_append, List.filterMap_cons, here]
      cases sys.history.takes[count]? <;> rfl

/-- The ledger has every take but the one in hand. -/
theorem publications_ledger (sys : System Data) (accounted : Accounted sys) :
    publications sys (List.range sys.spool.taken) ++ inHand sys.history =
      sys.history.takes.map Take.serial := by
  have counted := accounted.counted
  cases copy : copyOf sys.history.state.push with
  | none =>
      have all : sys.spool.taken = sys.earlier + sys.history.takes.length := by
        simpa [copy] using counted
      rw [all, publications_taken, List.take_length, inHand, copy]
      exact List.append_nil _
  | some held =>
      obtain ⟨taken, last, -⟩ := accounted.carried held copy
      obtain ⟨before, split⟩ := List.getLast?_eq_some_iff.mp last
      have all : sys.spool.taken = sys.earlier + before.length := by
        rw [copy, split, List.length_append] at counted
        exact Nat.succ.inj counted
      rw [all, publications_taken, inHand, copy, last, split, List.take_left]
      simp

/-- The places of a publication, and what a number of the ledger stands for. -/
structure Delivered (sys : System Data) : Prop where
  once : (publications sys (postedFrames sys.spool.posts) ++
      publications sys (sys.spool.dir.map File.frame) ++ publications sys sys.spool.evicted ++
      publications sys sys.spool.dropped ++ inHand sys.history ++ waiting sys.history ++
      sys.discarded).Perm (List.range sys.history.published.length)
  inOrder : ∀ first second older newer, first < second → serialOf sys first = some older →
    serialOf sys second = some newer → older < newer
  carried : ∀ data size, sys.history.state.push = .posting data size →
    ∃ serial, serialOf sys sys.spool.taken = some serial ∧
      sys.history.published[serial]? = some (data, size)
  ended : sys.history.state.main = .ended → inHand sys.history = []

theorem delivered_once (sys : System Data) (accounted : Accounted sys) :
    (publications sys (postedFrames sys.spool.posts) ++
      publications sys (sys.spool.dir.map File.frame) ++ publications sys sys.spool.evicted ++
      publications sys sys.spool.dropped ++ inHand sys.history ++ waiting sys.history ++
      sys.discarded).Perm (List.range sys.history.published.length) := by
  have placed := (accounted.kept.conserved.filterMap (serialOf sys)).append_right
    (inHand sys.history)
  rw [← publications, ← publications, publications_ledger sys accounted] at placed
  simp only [publications, List.filterMap_append] at placed ⊢
  refine (placed.append_right _ |>.append_right _).trans ?_
  exact List.perm_append_comm.trans (List.append_assoc .. ▸ accounted.shared)

theorem serialOf_ordered (sys : System Data) (accounted : Accounted sys)
    (first second older newer : Nat) (before : first < second)
    (one : serialOf sys first = some older) (two : serialOf sys second = some newer) :
    older < newer := by
  unfold serialOf at one two
  split at one
  · cases one
  · next late =>
    rw [if_neg (by omega)] at two
    obtain ⟨left, atFirst, rfl⟩ := Option.map_eq_some_iff.mp one
    obtain ⟨right, atSecond, rfl⟩ := Option.map_eq_some_iff.mp two
    obtain ⟨inFirst, rfl⟩ := List.getElem?_eq_some_iff.mp atFirst
    obtain ⟨inSecond, rfl⟩ := List.getElem?_eq_some_iff.mp atSecond
    exact List.pairwise_iff_getElem.mp accounted.sound.recorded.increasing _ _ inFirst inSecond
      (by omega)

/-- A frame is posted, stored or dropped under the number of its take. -/
theorem carried_published (sys : System Data) (accounted : Accounted sys) (data : Data)
    (size : Nat) (posting : sys.history.state.push = .posting data size) :
    ∃ serial, serialOf sys sys.spool.taken = some serial ∧
      sys.history.published[serial]? = some (data, size) := by
  have copy : copyOf sys.history.state.push = some (some (data, size)) := by rw [posting]; rfl
  obtain ⟨taken, last, same⟩ := accounted.carried _ copy
  obtain ⟨before, split⟩ := List.getLast?_eq_some_iff.mp last
  have count : sys.spool.taken = sys.earlier + before.length := by
    have counted := accounted.counted
    rw [copy, split, List.length_append] at counted
    exact Nat.succ.inj counted
  obtain ⟨frame, at', whole⟩ := accounted.sound.recorded.whole taken (by rw [split]; simp)
  obtain ⟨heldData, heldSize⟩ := same _ rfl
  refine ⟨taken.serial, ?_, ?_⟩
  · rw [serialOf, count, if_neg (by omega), Nat.add_sub_cancel_left, split]
    simp
  · rw [at', Option.some.injEq]
    exact Prod.ext (Option.some.inj (whole.1.symm.trans heldData)) (whole.2.symm.trans heldSize)

/-- However the threads interleave and whatever becomes of the posts and files, each frame that
`main` publishes is sent, stored, evicted, dropped, in hand, in the buffer or overwritten there. -/
theorem frames_delivered (sys : System Data)
    (reached : ReachableWithin step Starts DistinctReadings sys) : Delivered sys := by
  have accounted := reachable_within_invariant step Starts Accounted DistinctReadings
    accounted_initial accounted_step sys reached
  refine ⟨delivered_once sys accounted, serialOf_ordered sys accounted,
    carried_published sys accounted, fun atEnd => ?_⟩
  rw [inHand, accounted.ended atEnd]
  rfl

def begun : System Nat := ⟨⟨FrameHandoff.initial, [], []⟩, [], ⟨[], [], [], [], 0, []⟩, 0⟩

def published (data : Nat) : List (Label Nat) := List.replicate 8 (.hand (.main (.frame data 1)))

def takenUp : List (Label Nat) := List.replicate 8 (.hand (.push true))

/-- The first frame is refused and stored, the second overwritten by the third, which is posted
and drains the file; the fourth is left in the buffer. -/
def recovered : List (Label Nat) :=
  published 7 ++ takenUp ++
    [.pass ⟨true, some false, true, ⟨⟨[], fun _ => true⟩, fun _ => true, fun _ => true⟩,
      ⟨[], fun _ => true⟩, noon⟩] ++ published 8 ++ published 9 ++ takenUp ++
    [.pass ⟨true, some true, true, ⟨⟨[frameName noon], fun _ => true⟩, fun _ => true,
      fun _ => true⟩, ⟨[], fun _ => true⟩, noon⟩] ++ published 10

theorem frames_delivered_recovered : ∃ sys, exec step begun recovered = some sys ∧
    publications sys (postedFrames sys.spool.posts) = [2, 0] ∧ sys.discarded = [1] ∧
    waiting sys.history = [3] ∧ Delivered sys := by
  have ends : (exec step begun recovered).map (fun sys =>
      (publications sys (postedFrames sys.spool.posts), sys.discarded, waiting sys.history)) =
      some ([2, 0], [1], [3]) := by decide +kernel
  have within : Within step DistinctReadings begun recovered := by decide +kernel
  obtain ⟨sys, ran, facts⟩ := Option.map_eq_some_iff.mp ends
  simp only [Prod.mk.injEq] at facts
  refine ⟨sys, ran, facts.1, facts.2.1, facts.2.2, frames_delivered sys ⟨begun, recovered, ?_,
    within, ran⟩⟩
  exact ⟨rfl, rfl, ⟨List.nodup_nil, nofun, .nil, rfl, rfl, rfl⟩, rfl⟩

end SensorNode.FrameDelivery
