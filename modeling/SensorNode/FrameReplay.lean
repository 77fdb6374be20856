import SensorNode.FrameStore
import SensorNode.StepSystem

/-!
The contents of the offline frames of camera-stream, over runs in which a write may fall
short and the process may be killed and started again between any two calls. A frame is
written under its final name, so what has landed of it when the file is closed, or when
the process is gone, is what a later drain posts.
-/

namespace SensorNode.FrameReplay

open LineStream FrameStore StepSystem

/-! ## The push thread -/

structure FrameFile where
  name : Bytes
  bytes : Bytes
  deriving DecidableEq

def fileNames (files : List FrameFile) : List Bytes := files.map FrameFile.name

def createFile (name : Bytes) (files : List FrameFile) : List FrameFile :=
  files.filter (·.name ≠ name) ++ [⟨name, []⟩]

def setBytes (name bytes : Bytes) (files : List FrameFile) : List FrameFile :=
  files.map fun file => if file.name = name then ⟨name, bytes⟩ else file

def unlinkFile (name : Bytes) (files : List FrameFile) : List FrameFile :=
  files.filter (·.name ≠ name)

def openFile (files : List FrameFile) (name : Bytes) : Option FrameFile :=
  files.find? (·.name = name)

/-- Where the thread is: `trimming` and `storing` are `offline_frames_trim` and
`offline_frames_store`, with the names left to unlink and the bytes that are in the file;
`draining` and `unlinking` are `offline_frames_drain_batch`. -/
inductive Phase where
  | waiting
  | posting (frame : Bytes)
  | trimming (frame : Bytes) (doomed : List Bytes)
  | storing (frame name : Bytes) (written : Nat)
  | draining (names : List Bytes) (sent : Nat)
  | unlinking (name : Bytes) (rest : List Bytes) (sent : Nat)
  deriving DecidableEq

/-- `taken` and `posted` record what `push_thread` took from `frame_buf` and what the
drain passed to `post_jpeg`. -/
structure State where
  files : List FrameFile
  phase : Phase
  taken : List Bytes
  posted : List Bytes
  deriving DecidableEq

inductive Label where
  | take (frame : Bytes)
  /-- `post_jpeg` of the frame just taken has returned 0. -/
  | accepted (scan : Scan)
  | refused (diskOk : Bool) (scan : Scan)
  | trim (done : Bool)
  | create (reading : Timespec) (opens : Bool)
  | write (count : Nat)
  | close
  /-- `fopen` or `malloc` has failed on the next file. -/
  | skip
  /-- `fread` fills the front of the buffer and leaves `junk` behind it. -/
  | post (got : Nat) (junk : Bytes) (ok : Bool)
  | unlink (done : Bool)
  | finish
  | kill

def maxBatch : Nat := 5

def step (state : State) : Label → Option State
  | .take frame =>
      match state.phase with
      | .waiting => some { state with phase := .posting frame, taken := state.taken ++ [frame] }
      | _ => none
  | .accepted scan =>
      match state.phase with
      | .posting _ =>
          if scan.order.Perm (fileNames state.files) then
            some { state with
              phase := .draining (listOfflineFrames scan (maxOfflineFrames + 64)) 0 }
          else none
      | _ => none
  | .refused diskOk scan =>
      match state.phase with
      | .posting frame =>
          if scan.order.Perm (fileNames state.files) then
            some { state with
              phase := if diskOk then .trimming frame (doomed scan) else .waiting }
          else none
      | _ => none
  | .trim done =>
      match state.phase with
      | .trimming frame (name :: rest) =>
          some { state with
            files := if done then unlinkFile name state.files else state.files
            phase := .trimming frame rest }
      | _ => none
  | .create reading opens =>
      match state.phase with
      | .trimming frame [] =>
          if opens then
            some { state with
              files := createFile (frameName reading) state.files
              phase := .storing frame (frameName reading) 0 }
          else some { state with phase := .waiting }
      | _ => none
  | .write count =>
      match state.phase with
      | .storing frame name written =>
          some { state with
            files := setBytes name (frame.take (written + count)) state.files
            phase := .storing frame name (written + count) }
      | _ => none
  | .close =>
      match state.phase with
      -- Neither `fwrite` nor `fclose` is asked whether the frame has been written.
      | .storing _ _ _ => some { state with phase := .waiting }
      | _ => none
  | .skip =>
      match state.phase with
      | .draining (_ :: rest) sent =>
          if sent < maxBatch then some { state with phase := .draining rest sent } else none
      | _ => none
  | .post got junk ok =>
      match state.phase with
      | .draining (name :: rest) sent =>
          match openFile state.files name with
          | none => none
          | some file =>
              -- The size is that of the file, whatever `fread` returned.
              if sent < maxBatch ∧ (file.bytes.take got ++ junk).length = file.bytes.length then
                some { state with
                  phase := if ok then .unlinking name rest sent else .waiting
                  posted := state.posted ++ [file.bytes.take got ++ junk] }
              else none
      | _ => none
  | .unlink done =>
      match state.phase with
      | .unlinking name rest sent =>
          some { state with
            files := if done then unlinkFile name state.files else state.files
            phase := .draining rest (sent + 1) }
      | _ => none
  | .finish =>
      match state.phase with
      | .draining names sent =>
          if names = [] ∨ maxBatch ≤ sent then some { state with phase := .waiting } else none
      | _ => none
  -- The files stay as they are; what was still buffered is lost.
  | .kill => some { state with phase := .waiting }

/-- Whatever is stored at the start are frames taken in earlier runs. -/
def Starts (state : State) : Prop :=
  state.phase = .waiting ∧ state.posted = [] ∧ ∀ file ∈ state.files, file.bytes ∈ state.taken

/-- A file is open and does not have its whole frame. -/
def Phase.torn : Phase → Bool
  | .storing frame _ written => decide (written < frame.length)
  | _ => false

/-- No file is left torn, by a close or by a kill, and `fread` fills the whole buffer. -/
def Faultless (state : State) : Label → Prop
  | .close | .kill => state.phase.torn = false
  | .post _ junk _ => junk = []
  | _ => True

instance (state : State) (label : Label) : Decidable (Faultless state label) := by
  cases label <;> unfold Faultless <;> infer_instance

def Replays (state : State) : Prop := ∀ buffer ∈ state.posted, buffer ∈ state.taken

/-! ## What a step does -/

/-- What a step finds and leaves. -/
inductive Moves (state : State) : Label → State → Prop where
  | take (frame : Bytes) (phase : state.phase = .waiting) :
      Moves state (.take frame)
        { state with phase := .posting frame, taken := state.taken ++ [frame] }
  | accepted (scan : Scan) (frame : Bytes) (phase : state.phase = .posting frame) :
      Moves state (.accepted scan)
        { state with phase := .draining (listOfflineFrames scan (maxOfflineFrames + 64)) 0 }
  | refused (diskOk : Bool) (scan : Scan) (frame : Bytes) (phase : state.phase = .posting frame) :
      Moves state (.refused diskOk scan)
        { state with phase := if diskOk then .trimming frame (doomed scan) else .waiting }
  | trim (done : Bool) (frame name : Bytes) (rest : List Bytes)
      (phase : state.phase = .trimming frame (name :: rest)) :
      Moves state (.trim done)
        { state with
          files := if done then unlinkFile name state.files else state.files
          phase := .trimming frame rest }
  | create (reading : Timespec) (frame : Bytes) (phase : state.phase = .trimming frame []) :
      Moves state (.create reading true)
        { state with
          files := createFile (frameName reading) state.files
          phase := .storing frame (frameName reading) 0 }
  | uncreated (reading : Timespec) (frame : Bytes) (phase : state.phase = .trimming frame []) :
      Moves state (.create reading false) { state with phase := .waiting }
  | write (count : Nat) (frame name : Bytes) (written : Nat)
      (phase : state.phase = .storing frame name written) :
      Moves state (.write count)
        { state with
          files := setBytes name (frame.take (written + count)) state.files
          phase := .storing frame name (written + count) }
  | close (frame name : Bytes) (written : Nat)
      (phase : state.phase = .storing frame name written) :
      Moves state .close { state with phase := .waiting }
  | skip (name : Bytes) (rest : List Bytes) (sent : Nat)
      (phase : state.phase = .draining (name :: rest) sent) :
      Moves state .skip { state with phase := .draining rest sent }
  | post (got : Nat) (junk : Bytes) (ok : Bool) (name : Bytes) (rest : List Bytes) (sent : Nat)
      (phase : state.phase = .draining (name :: rest) sent) (file : FrameFile)
      (opened : openFile state.files name = some file)
      (sized : (file.bytes.take got ++ junk).length = file.bytes.length) :
      Moves state (.post got junk ok)
        { state with
          phase := if ok then .unlinking name rest sent else .waiting
          posted := state.posted ++ [file.bytes.take got ++ junk] }
  | unlink (done : Bool) (name : Bytes) (rest : List Bytes) (sent : Nat)
      (phase : state.phase = .unlinking name rest sent) :
      Moves state (.unlink done)
        { state with
          files := if done then unlinkFile name state.files else state.files
          phase := .draining rest (sent + 1) }
  | finish (names : List Bytes) (sent : Nat) (phase : state.phase = .draining names sent) :
      Moves state .finish { state with phase := .waiting }
  | kill : Moves state .kill { state with phase := .waiting }

theorem step_moves (state : State) (label : Label) (next : State)
    (moved : step state label = some next) : Moves state label next := by
  cases label with
  | take frame =>
      simp only [step] at moved
      split at moved
      · next phase => exact Option.some.inj moved ▸ .take frame phase
      · cases moved
  | accepted scan =>
      simp only [step] at moved
      split at moved
      · next frame phase =>
        split at moved
        · exact Option.some.inj moved ▸ .accepted scan frame phase
        · cases moved
      · cases moved
  | refused diskOk scan =>
      simp only [step] at moved
      split at moved
      · next frame phase =>
        split at moved
        · exact Option.some.inj moved ▸ .refused diskOk scan frame phase
        · cases moved
      · cases moved
  | trim done =>
      simp only [step] at moved
      split at moved
      · next frame name rest phase => exact Option.some.inj moved ▸ .trim done frame name rest phase
      · cases moved
  | create reading opens =>
      simp only [step] at moved
      split at moved
      · next frame phase =>
        cases opens with
        | true => exact Option.some.inj moved ▸ .create reading frame phase
        | false => exact Option.some.inj moved ▸ .uncreated reading frame phase
      · cases moved
  | write count =>
      simp only [step] at moved
      split at moved
      · next frame name written phase =>
        exact Option.some.inj moved ▸ .write count frame name written phase
      · cases moved
  | close =>
      simp only [step] at moved
      split at moved
      · next frame name written phase =>
        exact Option.some.inj moved ▸ .close frame name written phase
      · cases moved
  | skip =>
      simp only [step] at moved
      split at moved
      · next name rest sent phase =>
        split at moved
        · exact Option.some.inj moved ▸ .skip name rest sent phase
        · cases moved
      · cases moved
  | post got junk ok =>
      simp only [step] at moved
      split at moved
      · next name rest sent phase =>
        split at moved
        · cases moved
        · next file opened =>
          split at moved
          · next sized =>
            exact Option.some.inj moved ▸ .post got junk ok name rest sent phase file opened sized.2
          · cases moved
      · cases moved
  | unlink done =>
      simp only [step] at moved
      split at moved
      · next name rest sent phase =>
        exact Option.some.inj moved ▸ .unlink done name rest sent phase
      · cases moved
  | finish =>
      simp only [step] at moved
      split at moved
      · next names sent phase =>
        split at moved
        · exact Option.some.inj moved ▸ .finish names sent phase
        · cases moved
      · cases moved
  | kill => exact Option.some.inj moved ▸ .kill

def numbered (number : Bytes → Nat) (files : List FrameFile) : Directory :=
  files.map fun file => ⟨file.name, number file.bytes⟩

/-- A frame created and written in full is a store of the frame. -/
theorem stored_whole (number : Bytes → Nat) (reading : Timespec) (frame : Bytes)
    (files : List FrameFile) :
    numbered number (setBytes (frameName reading) frame (createFile (frameName reading) files)) =
      offlineFramesStore reading (number frame) (numbered number files) := by
  have others : ∀ file ∈ files.filter (·.name ≠ frameName reading),
      (if file.name = frameName reading then FrameFile.mk (frameName reading) frame else file) =
        file := by
    intro file member
    exact if_neg (by simpa using List.of_mem_filter member)
  rw [createFile, setBytes, List.map_append, List.map_congr_left others, List.map_id', numbered,
    List.map_append]
  simp [offlineFramesStore, unlinkAll, numbered, List.filter_map, Function.comp_def]

/-! ## Whole frames -/

def Phase.frame : Phase → Option Bytes
  | .posting frame | .trimming frame _ | .storing frame _ _ => some frame
  | _ => none

/-- The file is a frame, or the part of one that has been written so far. -/
def Sound (phase : Phase) (taken : List Bytes) (file : FrameFile) : Prop :=
  file.bytes ∈ taken ∨ ∃ frame written,
    phase = .storing frame file.name written ∧ file.bytes = frame.take written

structure Whole (state : State) : Prop where
  held : ∀ frame, state.phase.frame = some frame → frame ∈ state.taken
  files : ∀ file ∈ state.files, Sound state.phase state.taken file
  replays : Replays state

theorem unlinkFile_subset (name : Bytes) (files : List FrameFile) (done : Bool) :
    ∀ file ∈ if done then unlinkFile name files else files, file ∈ files := by
  intro file member
  cases done with
  | true => exact List.mem_of_mem_filter member
  | false => exact member

theorem Whole.settled {state : State} (whole : Whole state) (sound : state.phase.torn = false) :
    ∀ file ∈ state.files, file.bytes ∈ state.taken := by
  intro file member
  rcases whole.files file member with known | ⟨frame, written, phase, bytes⟩
  · exact known
  · have held := whole.held frame (by rw [phase, Phase.frame])
    have full : frame.length ≤ written := by simpa [phase, Phase.torn] using sound
    rwa [bytes, List.take_of_length_le full]

theorem create_sound (name frame : Bytes) (taken : List Bytes) (files : List FrameFile)
    (known : ∀ file ∈ files, file.bytes ∈ taken) :
    ∀ file ∈ createFile name files, Sound (.storing frame name 0) taken file := by
  intro file member
  rcases List.mem_append.mp member with older | newest
  · exact .inl (known file (List.mem_of_mem_filter older))
  · rw [List.mem_singleton.mp newest]
    exact .inr ⟨frame, 0, rfl, List.take_zero.symm⟩

theorem write_sound (name frame : Bytes) (before after : Nat) (taken : List Bytes)
    (files : List FrameFile)
    (sound : ∀ file ∈ files, Sound (.storing frame name before) taken file) :
    ∀ file ∈ setBytes name (frame.take after) files,
      Sound (.storing frame name after) taken file := by
  intro file member
  obtain ⟨old, inFiles, same⟩ := List.mem_map.mp member
  by_cases named : old.name = name
  · rw [if_pos named] at same
    subst same
    exact .inr ⟨frame, after, rfl, rfl⟩
  · rw [if_neg named] at same
    subst same
    rcases sound old inFiles with known | ⟨_, _, phase, _⟩
    · exact .inl known
    · -- Only the file being stored is incomplete, and it has the other name.
      cases phase
      exact absurd rfl named

theorem openFile_mem (files : List FrameFile) (name : Bytes) (file : FrameFile)
    (opened : openFile files name = some file) : file ∈ files := List.mem_of_find?_eq_some opened

theorem Whole.quiet {state : State} (whole : Whole state) (sound : state.phase.torn = false)
    (files : List FrameFile) (kept : ∀ file ∈ files, file ∈ state.files) (phase : Phase)
    (held : ∀ frame, phase.frame = some frame → state.phase.frame = some frame) :
    Whole { state with files, phase } := by
  refine ⟨fun frame holds => whole.held frame (held frame holds), ?_, whole.replays⟩
  exact fun file member => .inl (whole.settled sound file (kept file member))

theorem whole_step (state : State) (label : Label) (next : State) (whole : Whole state)
    (faultless : Faultless state label) (moved : step state label = some next) : Whole next := by
  have same : ∀ file ∈ state.files, file ∈ state.files := fun _ member => member
  cases step_moves state label next moved with
  | take frame phase =>
      have known := whole.settled (phase ▸ rfl)
      refine ⟨?_, fun file member => .inl (List.mem_append_left _ (known file member)), ?_⟩
      · rintro _ ⟨⟩
        exact List.mem_append_right _ List.mem_cons_self
      · exact fun buffer member => List.mem_append_left _ (whole.replays buffer member)
  | accepted scan frame phase => exact whole.quiet (phase ▸ rfl) _ same _ nofun
  | refused diskOk scan frame phase =>
      refine whole.quiet (phase ▸ rfl) _ same _ fun other holds => ?_
      cases diskOk with
      | true => exact phase ▸ holds
      | false => cases holds
  | trim done frame name rest phase =>
      refine whole.quiet (phase ▸ rfl) _ (unlinkFile_subset name _ done) _ fun other holds => ?_
      exact phase ▸ holds
  -- A new file is the part of its frame written so far, which is nothing.
  | create reading frame phase =>
      have known := whole.settled (phase ▸ rfl)
      refine ⟨?_, create_sound _ frame _ _ known, whole.replays⟩
      rintro _ ⟨⟩
      exact whole.held frame (phase ▸ rfl)
  | uncreated reading frame phase => exact whole.quiet (phase ▸ rfl) _ same _ nofun
  | write count frame name written phase =>
      have sound := whole.files
      rw [phase] at sound
      refine ⟨?_, write_sound name frame written _ _ _ sound, whole.replays⟩
      rintro _ ⟨⟩
      exact whole.held frame (phase ▸ rfl)
  | close frame name written phase => exact whole.quiet faultless _ same _ nofun
  | skip name rest sent phase => exact whole.quiet (phase ▸ rfl) _ same _ nofun
  | post got junk ok name rest sent phase file opened sized =>
      have known := whole.settled (phase ▸ rfl)
      refine ⟨fun other holds => ?_, fun file member => .inl (known file member), ?_⟩
      · cases ok <;> cases holds
      · have filled : junk = [] := faultless
        subst filled
        rw [List.append_nil] at sized ⊢
        -- All of the buffer was read, so what is posted is the contents of the file.
        have all : file.bytes.take got = file.bytes :=
          (List.take_prefix got file.bytes).eq_of_length sized
        intro buffer member
        rcases List.mem_append.mp member with earlier | last
        · exact whole.replays buffer earlier
        · rw [List.mem_singleton.mp last, all]
          exact known file (openFile_mem _ name file opened)
  | unlink done name rest sent phase =>
      exact whole.quiet (phase ▸ rfl) _ (unlinkFile_subset name _ done) _ nofun
  | finish names sent phase => exact whole.quiet (phase ▸ rfl) _ same _ nofun
  | kill => exact whole.quiet faultless _ same _ nofun

/-- Where no file is left torn and every read is complete, only frames taken before are
posted again. -/
theorem whole_frames_replayed (state : State)
    (reached : ReachableWithin step Starts Faultless state) : Replays state := by
  have whole := reachable_within_invariant step Starts Whole Faultless ?_ whole_step state reached
  · exact whole.replays
  rintro first ⟨phase, posted, files⟩
  refine ⟨?_, fun file member => .inl (files file member), ?_⟩
  · rw [phase]
    nofun
  · rw [Replays, posted]
    nofun

def emptyDisk : State := ⟨[], .waiting, [], []⟩

def morning : Timespec := ⟨1700000000, 5, Nat.le_of_ble_eq_true rfl⟩
def noon : Timespec := ⟨1700010000, 0, Nat.le_of_ble_eq_true rfl⟩

def scanOf (stamps : List Timespec) : Scan := ⟨stamps.map frameName, fun _ => true⟩

def outage : List Label :=
  [.take [255, 216, 1], .refused true (scanOf []), .create morning true, .write 2, .write 1, .close,
    .take [255, 216, 2], .accepted (scanOf [morning]), .post 3 [] true, .unlink true, .finish]

theorem whole_frames_replayed_outage :
    ∃ state, exec step emptyDisk outage = some state ∧ state.posted = [[255, 216, 1]] ∧
      Replays state := by
  have ran : (exec step emptyDisk outage).map State.posted = some [[255, 216, 1]] := by
    decide +kernel
  obtain ⟨state, reached, posted⟩ := Option.map_eq_some_iff.mp ran
  exact ⟨state, reached, posted, whole_frames_replayed state
    ⟨emptyDisk, outage, ⟨rfl, rfl, nofun⟩, by decide +kernel, reached⟩⟩

/-- A full disk keeps one byte of the first frame, a kill one byte of the second. -/
def tornRun : List Label :=
  [.take [255, 216, 1], .refused true (scanOf []), .create morning true, .write 1, .close,
    .take [255, 216, 2], .refused true (scanOf [morning]), .create noon true, .write 1, .kill,
    .take [255, 216, 3], .accepted (scanOf [noon, morning]), .post 1 [] true, .unlink true,
    .post 1 [] true]

theorem torn_frames_replayed : ¬ ∀ state, Reachable step Starts state → Replays state := by
  intro always
  have ran : (exec step emptyDisk tornRun).map (fun state => (state.posted, state.taken)) =
      some ([[255], [255]], [[255, 216, 1], [255, 216, 2], [255, 216, 3]]) := by
    decide +kernel
  obtain ⟨state, reached, ends⟩ := Option.map_eq_some_iff.mp ran
  obtain ⟨posted, taken⟩ := Prod.mk.inj ends
  have known := always state ⟨emptyDisk, tornRun, ⟨rfl, rfl, nofun⟩, reached⟩ [255]
    (by simp [posted])
  exact absurd (taken ▸ known) (by decide)

end SensorNode.FrameReplay
