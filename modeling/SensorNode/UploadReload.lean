import SensorNode.ReloadFlag
import SensorNode.UploadLoop
import SensorNode.UrlUpdater

/-!
image-uploader with the file it reads, which others rewrite under it. Its main loop does what the
daemon with the reload flag does, so what is known of the flag says which file an upload goes by.
-/

namespace SensorNode.UploadReload

open LineStream ConfigLoad StepSystem UploadLoop
open ReloadFlag (imageUploader Tracks NoneBetween)

/-- `asked` is the number of rewrites when the latest SIGHUP came, `read` the number at the last
load, if that found a file. -/
structure System where
  loop : State
  earlier : List (Option Bytes)
  file : Option Bytes
  read : Option Nat
  asked : Option Nat

def Starts (sys : System) : Prop :=
  UploadLoop.Starts sys.loop ∧ sys.earlier = [] ∧ sys.read = none ∧ sys.asked = none

/-- A signal, a load of the file as it stands, or any other step of the loop. -/
inductive Label where
  | rewrite (content : Option Bytes)
  | hangUp
  | load
  | work (label : UploadLoop.Label)

def step (sys : System) : Label → Option System
  | .rewrite content =>
      some { sys with earlier := sys.earlier ++ [sys.file], file := content }
  | .hangUp =>
      (UploadLoop.step sys.loop (.signal true)).map fun next =>
        { sys with loop := next, asked := some sys.earlier.length }
  | .load =>
      (UploadLoop.step sys.loop (.load sys.file)).map fun next =>
        { sys with loop := next, read := sys.file.map fun _ => sys.earlier.length }
  | .work (.signal true) | .work (.load _) => none
  | .work label => (UploadLoop.step sys.loop label).map fun next => { sys with loop := next }

/-! ## As a daemon with a flag -/

def phaseOf : Phase → ReloadFlag.Phase
  | .starting => .starting [.load]
  | .testing | .checking | .stopped => .testing
  | .loading => .reloading [.load, .clear]
  | .clearing => .reloading [.clear]
  | .capturing | .failed | .uploading .. | .retrying .. | .waiting _ => .working

def image (sys : System) : ReloadFlag.State :=
  ⟨phaseOf sys.loop.phase, true, sys.loop.reload, sys.earlier.length, sys.read, sys.asked⟩

/-- No SIGHUP for a newer file between a load and the clearing of the flag, and a file there when
it is to be loaded again. -/
def Unhurried (sys : System) : Label → Prop
  | .hangUp => sys.loop.phase = .clearing → sys.read = some sys.earlier.length
  | .load => sys.loop.phase = .loading → sys.file.isSome = true
  | _ => True

instance (sys : System) (label : Label) : Decidable (Unhurried sys label) := by
  unfold Unhurried
  split <;> infer_instance

abbrev Matched (sys next : System) (free : Prop) : Prop :=
  ∃ labels, (free → Within (ReloadFlag.step imageUploader) (NoneBetween imageUploader) (image sys)
      labels) ∧
    exec (ReloadFlag.step imageUploader) (image sys) labels = some (image next)

theorem matched_none (sys next : System) (free : Prop) (same : image next = image sys) :
    Matched sys next free := ⟨[], fun _ => trivial, congrArg some same.symm⟩

theorem matched_run (sys next : System) (free : Prop)
    (other : (image sys).phase.loads = false)
    (moved : ReloadFlag.step imageUploader (image sys) (.run true) = some (image next)) :
    Matched sys next free := by
  refine ⟨[.run true], fun _ => ⟨fun loads => ?_, fun _ _ => trivial⟩, ?_⟩
  · rw [other] at loads
    cases loads
  · rw [exec_cons, moved]
    rfl

theorem hangUp_matched (sys : System) (next : State)
    (moved : UploadLoop.step sys.loop (.signal true) = some next) :
    Matched sys { sys with loop := next, asked := some sys.earlier.length }
      (Unhurried sys .hangUp) := by
  cases step_moves sys.loop _ next moved with
  | signal _ alive =>
      refine ⟨[.hup], fun free => ⟨fun stale => ?_, fun _ _ => trivial⟩, rfl⟩
      apply free
      cases phase : sys.loop.phase with
      | clearing => rfl
      | _ => simp [image, phase, phaseOf, ReloadFlag.Phase.stale] at stale

theorem load_matched (sys : System) (next : State)
    (moved : UploadLoop.step sys.loop (.load sys.file) = some next) :
    Matched sys
      { sys with loop := next, read := sys.file.map fun _ => sys.earlier.length }
      (Unhurried sys .load) := by
  obtain ⟨loop, earlier, file, read, asked⟩ := sys
  cases step_moves loop _ next moved with
  | start _ starting =>
      -- The load, and the end of the startup.
      have startup : (image ⟨loop, earlier, file, read, asked⟩).phase = .starting [.load] := by
        simp only [image, starting, phaseOf]
      refine ⟨[.run file.isSome, .run true], fun _ => ⟨fun loads => ?_, fun middle moved =>
        ⟨fun loads => ?_, fun _ _ => trivial⟩⟩, ?_⟩
      · rw [startup] at loads
        cases loads
      · simp only [ReloadFlag.step, startup] at moved
        obtain rfl := Option.some.inj moved
        cases file <;> cases loads
      · simp only [image, starting, phaseOf, exec_cons]
        cases file <;> rfl
  | load _ loading =>
      refine ⟨[.run file.isSome], fun free => ⟨fun _ => .inl (free loading),
        fun _ _ => trivial⟩, ?_⟩
      simp only [image, loading, phaseOf, exec_cons]
      cases file <;> rfl

theorem work_matched (sys : System) (label : UploadLoop.Label) (next : State)
    (moved : UploadLoop.step sys.loop label = some next) (free : Prop)
    (quiet : label ≠ .signal true ∧ ∀ file, label ≠ .load file) :
    Matched sys { sys with loop := next } free := by
  cases step_moves sys.loop label next moved with
  | signal hup alive =>
      cases hup with
      | true => exact absurd rfl quiet.1
      | false => exact matched_none _ _ _ rfl
  | start file => exact absurd rfl (quiet.2 file)
  | load file => exact absurd rfl (quiet.2 file)
  | test testing =>
      apply matched_none
      simp only [image, testing]
      split <;> rfl
  | check checking =>
      apply matched_run
      · simp only [image, checking]
        rfl
      · simp only [image, checking, ReloadFlag.step, phaseOf]
        split <;> rfl
  | clear clearing =>
      -- The flag is cleared, and the reload is at its end.
      have reloading : (image sys).phase = .reloading [.clear] := by
        simp only [image, clearing, phaseOf]
      refine ⟨[.run true, .run true], fun _ => ⟨fun loads => ?_, fun middle moved =>
        ⟨fun loads => ?_, fun _ _ => trivial⟩⟩, ?_⟩
      · rw [reloading] at loads
        cases loads
      · simp only [ReloadFlag.step, reloading] at moved
        obtain rfl := Option.some.inj moved
        cases loads
      · simp only [image, clearing, phaseOf, exec_cons]
        rfl
  | capture now io capturing =>
      apply matched_none
      simp only [image, captureStep, State.note, capturing]
      split <;> rfl
  | failed failed =>
      apply matched_run
      · simp only [image, failed]
        rfl
      · simp only [image, failed, State.note, phaseOf]
        rfl
  | upload path attempt now io uploading left =>
      apply matched_none
      simp only [image, uploadStep, State.note, uploading]
      split
      · rfl
      · split <;> rfl
  | exhausted path attempt uploading past =>
      apply matched_none
      simp only [image, uploading]
      rfl
  | retry path attempt retrying =>
      apply matched_none
      simp only [image, State.note, retrying]
      rfl
  | wait i waiting more running =>
      apply matched_none
      simp only [image, State.note, waiting]
      rfl
  | ended i waiting passed =>
      apply matched_run
      · simp only [image, waiting]
        rfl
      · simp only [image, waiting, phaseOf]
        rfl

theorem step_matched (sys : System) (label : Label) (next : System)
    (moved : step sys label = some next) : Matched sys next (Unhurried sys label) := by
  unfold step at moved
  split at moved
  · obtain rfl := Option.some.inj moved
    refine ⟨[.rewrite], fun _ => ⟨trivial, fun _ _ => trivial⟩, ?_⟩
    simp only [image, exec_cons, ReloadFlag.step, List.length_append, List.length_singleton]
    rfl
  · obtain ⟨loop, went, rfl⟩ := Option.map_eq_some_iff.mp moved
    exact hangUp_matched sys loop went
  · obtain ⟨loop, went, rfl⟩ := Option.map_eq_some_iff.mp moved
    exact load_matched sys loop went
  · cases moved
  · cases moved
  · next label hup load =>
    obtain ⟨loop, went, rfl⟩ := Option.map_eq_some_iff.mp moved
    exact work_matched sys label loop went _ ⟨hup, load⟩

/-! ## What an upload goes by -/

theorem starts_image (sys : System) (starts : Starts sys) :
    ReachableWithin (ReloadFlag.step imageUploader) (ReloadFlag.Starts imageUploader)
      (NoneBetween imageUploader) (image sys) := by
  obtain ⟨⟨cfg, begun⟩, earlier, read, asked⟩ := starts
  refine ⟨imageUploader.initial 0, [.run true], ⟨0, rfl⟩, ⟨nofun, fun _ _ => trivial⟩, ?_⟩
  simp only [image, begun, earlier, read, asked]
  rfl

theorem reached_image (sys : System) (reached : ReachableWithin step Starts Unhurried sys) :
    ReachableWithin (ReloadFlag.step imageUploader) (ReloadFlag.Starts imageUploader)
      (NoneBetween imageUploader) (image sys) :=
  reachable_within_simulated step (ReloadFlag.step imageUploader) image Starts
    (ReloadFlag.Starts imageUploader) Unhurried (NoneBetween imageUploader) starts_image
    (fun sys label next free moved => by
      obtain ⟨labels, within, went⟩ := step_matched sys label next moved
      exact ⟨labels, within free, went⟩) sys reached

theorem reached_tracks (sys : System) (reached : ReachableWithin step Starts Unhurried sys) :
    Tracks (image sys) := by
  have member : imageUploader ∈ ReloadFlag.daemons := by decide
  refine reachable_within_invariant (ReloadFlag.step imageUploader)
    (ReloadFlag.Starts imageUploader) Tracks (NoneBetween imageUploader) ?_
    (ReloadFlag.tracks_step imageUploader member) (image sys) (reached_image sys reached)
  rintro _ ⟨version, rfl⟩
  exact ReloadFlag.tracks_initial imageUploader member version

/-- With the flag clear, nothing asked for is outstanding, wherever the loop stands. -/
theorem tracks_fresh (sys : System) (tracks : Tracks (image sys))
    (clear : sys.loop.reload = false) : ReloadFlag.Fresh (image sys) := by
  have flag : ¬ (image sys).flag = true := by simp [image, clear]
  have inside := tracks.phase
  have phase : (image sys).phase = phaseOf sys.loop.phase := rfl
  rw [phase] at inside
  cases found : sys.loop.phase with
  | starting =>
      rw [found] at inside
      exact ReloadFlag.fresh_none _ (inside.2.resolve_left flag)
  | loading =>
      rw [found] at inside
      exact absurd inside.2 flag
  | clearing =>
      rw [found] at inside
      exact inside.2
  | _ =>
      rw [found] at inside
      exact Or.resolve_left inside flag

/-- The values in use are those of the content that was read last. -/
def Recorded (sys : System) : Prop :=
  ∀ used, sys.read = some used → ∃ prior content,
    (sys.earlier ++ [sys.file])[used]? = some (some content) ∧
      sys.loop.cfg = loadConfig prior (some content)

theorem work_cfg (state next : State) (label : UploadLoop.Label)
    (moved : UploadLoop.step state label = some next) (quiet : ∀ file, label ≠ .load file) :
    next.cfg = state.cfg := by
  cases step_moves state label next moved with
  | start file => exact absurd rfl (quiet file)
  | load file => exact absurd rfl (quiet file)
  | _ => rfl

theorem recorded_step (sys : System) (label : Label) (next : System) (recorded : Recorded sys)
    (moved : step sys label = some next) : Recorded next := by
  intro used read
  unfold step at moved
  split at moved
  · obtain rfl := Option.some.inj moved
    obtain ⟨prior, content, found, cfg⟩ := recorded used read
    refine ⟨prior, content, ?_, cfg⟩
    rw [List.getElem?_append_left (List.getElem?_eq_some_iff.mp found).1]
    exact found
  · obtain ⟨loop, went, rfl⟩ := Option.map_eq_some_iff.mp moved
    obtain ⟨prior, content, found, cfg⟩ := recorded used read
    exact ⟨prior, content, found, (work_cfg sys.loop loop _ went nofun).trans cfg⟩
  · obtain ⟨loop, went, rfl⟩ := Option.map_eq_some_iff.mp moved
    obtain ⟨content, file, rfl⟩ := Option.map_eq_some_iff.mp read
    refine ⟨sys.loop.cfg, content, ?_, ?_⟩
    · rw [List.getElem?_append_right le_rfl, Nat.sub_self, file]
      rfl
    · rw [file] at went
      cases step_moves sys.loop _ loop went <;> rfl
  · cases moved
  · cases moved
  · next other hup load =>
    obtain ⟨loop, went, rfl⟩ := Option.map_eq_some_iff.mp moved
    obtain ⟨prior, content, found, cfg⟩ := recorded used read
    exact ⟨prior, content, found, (work_cfg sys.loop loop other went load).trans cfg⟩

/-- Once the flag is clear again the daemon goes by a file no older than the latest SIGHUP; if that
came after url-updater's last change of the file, every request goes to the URL it wrote, for a URL
and a file that `load_config` reads it back from. -/
theorem requests_reach_uploads (sys : System)
    (reached : ReachableWithin step Starts Unhurried sys) (clear : sys.loop.reload = false) :
    (∀ wanted, sys.asked = some wanted → ∃ used prior content, wanted ≤ used ∧
      (sys.earlier ++ [sys.file])[used]? = some (some content) ∧
        sys.loop.cfg = loadConfig prior (some content)) ∧
    ∀ (other : Bytes → Bytes → Bytes) (before : Option Bytes) (url : Bytes),
      UrlUpdater.ServerUrl url → (∀ cfg, UrlUpdater.UpdateSafe cfg before url) →
      sys.file = UrlUpdater.updateImageUploader other before url →
      sys.asked = some sys.earlier.length →
      ∀ path now io request,
        (CaptureCommand.uploadImage sys.loop.cfg path now io).request = some request →
          request.url = url := by
  have recorded : Recorded sys := by
    refine reachable_within_invariant step Starts Recorded Unhurried ?_
      (fun sys label next holds _ => recorded_step sys label next holds) sys reached
    rintro start ⟨-, -, none', -⟩ used read
    rw [none'] at read
    cases read
  have fresh := tracks_fresh sys (reached_tracks sys reached) clear
  have served (wanted : Nat) (asked : sys.asked = some wanted) : ∃ used prior content,
      wanted ≤ used ∧ (sys.earlier ++ [sys.file])[used]? = some (some content) ∧
        sys.loop.cfg = loadConfig prior (some content) := by
    obtain ⟨used, read, late⟩ := fresh wanted asked
    obtain ⟨prior, content, found, cfg⟩ := recorded used read
    exact ⟨used, prior, content, late, found, cfg⟩
  refine ⟨served, fun other before url valid safe file asked path now io request sent => ?_⟩
  obtain ⟨used, prior, content, late, found, cfg⟩ := served _ asked
  have last : some content = sys.file := by
    have inside := (List.getElem?_eq_some_iff.mp found).1
    rw [List.length_append, List.length_singleton] at inside
    obtain rfl : used = sys.earlier.length := by omega
    rw [List.getElem?_append_right le_rfl, Nat.sub_self] at found
    exact (Option.some.inj found).symm
  have agrees := (UrlUpdater.updateSafe_agrees other prior before url valid (safe prior)).1
  rw [← file, ← last, ← cfg] at agrees
  unfold CaptureCommand.uploadImage at sent
  split at sent
  · obtain rfl := Option.some.inj sent
    exact agrees
  · cases sent

def oldFile : Bytes := UrlUpdater.echo (ascii "server_url=http://a/")

def begun : System := ⟨launched, [], some oldFile, none, none⟩

/-- The URL is changed during a pass, whose picture then fails; the next pass begins anew. -/
def changed : List Label :=
  [.load, .work .go, .work .go,
    .rewrite (UrlUpdater.updateImageUploader (fun _ file => file) (some oldFile)
      (ascii "http://b/")),
    .hangUp, .work (.capture 0 ⟨true, true, 0, none⟩), .work .go, .work .go, .work .go, .load,
    .work .go]

theorem requests_reach_uploads_changed : ∃ sys, exec step begun changed = some sys ∧
    ∀ path now io request,
      (CaptureCommand.uploadImage sys.loop.cfg path now io).request = some request →
        request.url = ascii "http://b/" := by
  have ends : (exec step begun changed).map (fun sys =>
      (sys.loop.reload, sys.file, sys.asked, sys.earlier.length)) =
      some (false, UrlUpdater.updateImageUploader (fun _ file => file) (some oldFile)
        (ascii "http://b/"), some 1, 1) := by decide +kernel
  have within : Within step Unhurried begun changed := by decide +kernel
  obtain ⟨sys, ran, facts⟩ := Option.map_eq_some_iff.mp ends
  simp only [Prod.mk.injEq] at facts
  obtain ⟨clear, file, asked, count⟩ := facts
  have reached : ReachableWithin step Starts Unhurried sys :=
    ⟨begun, changed, ⟨⟨_, rfl⟩, rfl, rfl, rfl⟩, within, ran⟩
  have safe (cfg : UploaderConfig) :
      UrlUpdater.UpdateSafe cfg (some oldFile) (ascii "http://b/") := by
    refine ⟨.inl (by decide), ?_⟩
    simp only
    rw [if_pos (by decide +kernel)]
    exact ⟨by decide, by decide +kernel, by decide +kernel⟩
  exact ⟨sys, ran, (requests_reach_uploads sys reached clear).2 _ _ _ (by decide) safe file
    (by rw [asked, count])⟩

end SensorNode.UploadReload
