import SensorNode.CaptureCommand
import SensorNode.StepSystem

/-!
The main loop of image-uploader, one step for each call or test it makes, with signals between any
two of them. What the daemon does to the outside is a history of captures, uploads and sleeps.
-/

namespace SensorNode.UploadLoop

open LineStream ConfigLoad StepSystem CaptureCommand

inductive Effect where
  | capture (result : Capture)
  | upload (result : Upload)
  | sleep (seconds : UInt32)
  deriving DecidableEq

/-- What `main` does next; `attempt` and `i` are its loop variables. Unbounded, `attempt`
is the `int` of the code for every `max_retries` below the largest one. -/
inductive Phase where
  | starting
  | testing
  | checking
  | loading
  | clearing
  | capturing
  | failed
  | uploading (path : Bytes) (attempt : Int)
  | retrying (path : Bytes) (attempt : Int)
  | waiting (i : Int)
  | stopped
  deriving DecidableEq

structure State where
  phase : Phase
  cfg : UploaderConfig
  running : Bool
  reload : Bool
  history : List Effect

/-- After `signal` and before the first `load_config`, whatever the struct holds. -/
def Starts (state : State) : Prop := ∃ cfg, state = ⟨.starting, cfg, true, false, []⟩

inductive Label where
  /-- SIGHUP, or SIGINT or SIGTERM. -/
  | signal (hup : Bool)
  | load (file : Option Bytes)
  | capture (now : Int64) (io : CaptureIo)
  | upload (now : Int64) (io : UploadIo)
  /-- A test, an assignment or a sleep. -/
  | go

def State.note (state : State) (effect : Effect) (phase : Phase) : State :=
  { state with phase := phase, history := state.history ++ [effect] }

def captureStep (state : State) (now : Int64) (io : CaptureIo) : State :=
  let result := captureImage state.cfg now io
  state.note (.capture result) (if result.ok then .uploading result.path 1 else .failed)

/-- The body of the retry loop, entered while `attempt <= cfg.max_retries`. -/
def uploadStep (state : State) (path : Bytes) (attempt : Int) (now : Int64) (io : UploadIo) :
    State :=
  let result := uploadImage state.cfg path now io
  state.note (.upload result)
    (if result.ok then .waiting 0
    else if attempt < state.cfg.maxRetries.toInt then .retrying path attempt
    else .uploading path (attempt + 1))

def step (state : State) (label : Label) : Option State :=
  match label, state.phase with
  | .signal true, .stopped | .signal false, .stopped => none
  | .signal true, _ => some { state with reload := true }
  | .signal false, _ => some { state with running := false }
  | .load file, .starting =>
      some { state with phase := .testing, cfg := loadConfig state.cfg file }
  | .go, .testing => some { state with phase := if state.running then .checking else .stopped }
  | .go, .checking => some { state with phase := if state.reload then .loading else .capturing }
  | .load file, .loading =>
      some { state with phase := .clearing, cfg := loadConfig state.cfg file }
  | .go, .clearing => some { state with phase := .capturing, reload := false }
  | .capture now io, .capturing => some (captureStep state now io)
  | .go, .failed => some (state.note (.sleep state.cfg.interval.toUInt32) .testing)
  | .upload now io, .uploading path attempt =>
      if attempt ≤ state.cfg.maxRetries.toInt then some (uploadStep state path attempt now io)
      else none
  | .go, .uploading _ attempt =>
      if attempt ≤ state.cfg.maxRetries.toInt then none
      else some { state with phase := .waiting 0 }
  | .go, .retrying path attempt =>
      some (state.note (.sleep state.cfg.retryDelay.toUInt32) (.uploading path (attempt + 1)))
  | .go, .waiting i =>
      if i < state.cfg.interval.toInt ∧ state.running then
        some (state.note (.sleep 1) (.waiting (i + 1)))
      else some { state with phase := .testing }
  | _, _ => none

/-- What a step finds and leaves. -/
inductive Moves (state : State) : Label → State → Prop where
  | signal (hup : Bool) (alive : state.phase ≠ .stopped) :
      Moves state (.signal hup)
        { state with running := hup && state.running, reload := hup || state.reload }
  | start (file : Option Bytes) (starting : state.phase = .starting) :
      Moves state (.load file)
        { state with phase := .testing, cfg := loadConfig state.cfg file }
  | test (testing : state.phase = .testing) :
      Moves state .go { state with phase := if state.running then .checking else .stopped }
  | check (checking : state.phase = .checking) :
      Moves state .go { state with phase := if state.reload then .loading else .capturing }
  | load (file : Option Bytes) (loading : state.phase = .loading) :
      Moves state (.load file)
        { state with phase := .clearing, cfg := loadConfig state.cfg file }
  | clear (clearing : state.phase = .clearing) :
      Moves state .go { state with phase := .capturing, reload := false }
  | capture (now : Int64) (io : CaptureIo) (capturing : state.phase = .capturing) :
      Moves state (.capture now io) (captureStep state now io)
  | failed (failed : state.phase = .failed) :
      Moves state .go (state.note (.sleep state.cfg.interval.toUInt32) .testing)
  | upload (path : Bytes) (attempt : Int) (now : Int64) (io : UploadIo)
      (uploading : state.phase = .uploading path attempt)
      (left : attempt ≤ state.cfg.maxRetries.toInt) :
      Moves state (.upload now io) (uploadStep state path attempt now io)
  | exhausted (path : Bytes) (attempt : Int) (uploading : state.phase = .uploading path attempt)
      (past : state.cfg.maxRetries.toInt < attempt) :
      Moves state .go { state with phase := .waiting 0 }
  | retry (path : Bytes) (attempt : Int) (retrying : state.phase = .retrying path attempt) :
      Moves state .go
        (state.note (.sleep state.cfg.retryDelay.toUInt32) (.uploading path (attempt + 1)))
  | wait (i : Int) (waiting : state.phase = .waiting i) (more : i < state.cfg.interval.toInt)
      (running : state.running = true) :
      Moves state .go (state.note (.sleep 1) (.waiting (i + 1)))
  | ended (i : Int) (waiting : state.phase = .waiting i)
      (passed : ¬ (i < state.cfg.interval.toInt ∧ state.running = true)) :
      Moves state .go { state with phase := .testing }

theorem step_moves (state : State) (label : Label) (next : State)
    (moved : step state label = some next) : Moves state label next := by
  unfold step at moved
  split at moved
  · cases moved
  · cases moved
  · next alive =>
    obtain rfl := Option.some.inj moved
    exact .signal true alive
  · next alive =>
    obtain rfl := Option.some.inj moved
    exact .signal false alive
  · next starting => exact Option.some.inj moved ▸ .start _ starting
  · next testing => exact Option.some.inj moved ▸ .test testing
  · next checking => exact Option.some.inj moved ▸ .check checking
  · next loading => exact Option.some.inj moved ▸ .load _ loading
  · next clearing => exact Option.some.inj moved ▸ .clear clearing
  · next capturing => exact Option.some.inj moved ▸ .capture _ _ capturing
  · next failed => exact Option.some.inj moved ▸ .failed failed
  · next uploading =>
    split at moved
    · next left => exact Option.some.inj moved ▸ .upload _ _ _ _ uploading left
    · cases moved
  · next uploading =>
    split at moved
    · cases moved
    · next past => exact Option.some.inj moved ▸ .exhausted _ _ uploading (not_le.mp past)
  · next retrying => exact Option.some.inj moved ▸ .retry _ _ retrying
  · next waiting =>
    split at moved
    · next both => exact Option.some.inj moved ▸ .wait _ waiting both.1 both.2
    · next passed => exact Option.some.inj moved ▸ .ended _ waiting passed
  · cases moved

/-! ## Passes -/

/-- The tries for one picture from this attempt on, until one is taken or none is left. -/
inductive Tries (cfg : UploaderConfig) (path : Bytes) : Int → List Effect → Prop where
  | none (attempt : Int) (past : cfg.maxRetries.toInt < attempt) : Tries cfg path attempt []
  | taken (attempt : Int) (now : Int64) (io : UploadIo) (left : attempt ≤ cfg.maxRetries.toInt)
      (ok : (uploadImage cfg path now io).ok = true) :
      Tries cfg path attempt [.upload (uploadImage cfg path now io)]
  | refused (attempt : Int) (now : Int64) (io : UploadIo) (rest : List Effect)
      (left : attempt ≤ cfg.maxRetries.toInt) (bad : (uploadImage cfg path now io).ok = false)
      (later : Tries cfg path (attempt + 1) rest) :
      Tries cfg path attempt (.upload (uploadImage cfg path now io) ::
        ((if attempt < cfg.maxRetries.toInt then [.sleep cfg.retryDelay.toUInt32] else []) ++ rest))

/-- One turn of the main loop under one configuration. -/
inductive Pass (cfg : UploaderConfig) : List Effect → Prop where
  | failed (now : Int64) (io : CaptureIo) (bad : (captureImage cfg now io).ok = false) :
      Pass cfg [.capture (captureImage cfg now io), .sleep cfg.interval.toUInt32]
  | captured (now : Int64) (io : CaptureIo) (tries : List Effect) (waits : Nat)
      (good : (captureImage cfg now io).ok = true)
      (tried : Tries cfg (captureImage cfg now io).path 1 tries)
      (few : waits ≤ cfg.interval.toInt.toNat) :
      Pass cfg (.capture (captureImage cfg now io) :: (tries ++ List.replicate waits (.sleep 1)))

def Loaded (cfg : UploaderConfig) : Prop := ∃ prior file, cfg = loadConfig prior file

/-- Tries so far: whatever follows them from this attempt on completes them. -/
def Tried (cfg : UploaderConfig) (path : Bytes) (attempt : Int) (tried : List Effect) : Prop :=
  ∀ rest, Tries cfg path attempt rest → Tries cfg path 1 (tried ++ rest)

/-- A picture has been taken, and these are its tries. -/
def Taken (cfg : UploaderConfig) (path : Bytes) (rest tries : List Effect) : Prop :=
  ∃ now io, (captureImage cfg now io).ok = true ∧ (captureImage cfg now io).path = path ∧
    rest = .capture (captureImage cfg now io) :: tries

/-- What a pass has done when the loop is at this point of it. -/
def Open (cfg : UploaderConfig) (rest : List Effect) : Phase → Prop
  | .failed => ∃ now io, (captureImage cfg now io).ok = false ∧
      rest = [.capture (captureImage cfg now io)]
  | .uploading path attempt => 1 ≤ attempt ∧ attempt ≤ max 0 cfg.maxRetries.toInt + 1 ∧
      ∃ tried, Taken cfg path rest tried ∧ Tried cfg path attempt tried
  | .retrying path attempt => 1 ≤ attempt ∧ attempt < cfg.maxRetries.toInt ∧
      ∃ tried, Taken cfg path rest tried ∧
        Tried cfg path (attempt + 1) (tried ++ [.sleep cfg.retryDelay.toUInt32])
  | .waiting i => 0 ≤ i ∧ i ≤ max 0 cfg.interval.toInt ∧ ∃ path tries,
      Tries cfg path 1 tries ∧ Taken cfg path rest (tries ++ List.replicate i.toNat (.sleep 1))
  | _ => rest = []

/-- The history is a row of passes, the last one of which may be under way. -/
def Explained (state : State) : Prop :=
  (state.phase ≠ .starting → Loaded state.cfg) ∧
    ∃ passes : List (UploaderConfig × List Effect), ∃ rest,
      state.history = passes.flatMap Prod.snd ++ rest ∧
      (∀ pass ∈ passes, Loaded pass.1 ∧ Pass pass.1 pass.2) ∧ Open state.cfg rest state.phase

theorem tries_next (cfg : UploaderConfig) (path : Bytes) (attempt : Int) (tried : List Effect)
    (now : Int64) (io : UploadIo) (soFar : Tried cfg path attempt tried)
    (left : attempt ≤ cfg.maxRetries.toInt) (bad : (uploadImage cfg path now io).ok = false) :
    Tried cfg path (attempt + 1) (tried ++ .upload (uploadImage cfg path now io) ::
      (if attempt < cfg.maxRetries.toInt then [.sleep cfg.retryDelay.toUInt32] else [])) := by
  intro rest later
  have whole := soFar _ (.refused attempt now io rest left bad later)
  simpa using whole

theorem taken_more (cfg : UploaderConfig) (path : Bytes) (rest tries more : List Effect)
    (taken : Taken cfg path rest tries) : Taken cfg path (rest ++ more) (tries ++ more) := by
  obtain ⟨now, io, ok, same, rfl⟩ := taken
  exact ⟨now, io, ok, same, rfl⟩

theorem explained_note (state : State) (effect : Effect) (phase : Phase)
    (explained : Explained state) (begun : state.phase ≠ .starting)
    (goesOn : ∀ rest, Open state.cfg rest state.phase → Open state.cfg (rest ++ [effect]) phase) :
    Explained (state.note effect phase) := by
  obtain ⟨loaded, passes, rest, history, complete, isOpen⟩ := explained
  refine ⟨fun _ => loaded begun, passes, rest ++ [effect], ?_, complete, goesOn rest isOpen⟩
  simp only [State.note, history, List.append_assoc]

theorem explained_move (state : State) (phase : Phase) (running reload : Bool)
    (explained : Explained state) (begun : state.phase ≠ .starting)
    (goesOn : ∀ rest, Open state.cfg rest state.phase → Open state.cfg rest phase) :
    Explained { state with phase := phase, running := running, reload := reload } := by
  obtain ⟨loaded, passes, rest, history, complete, isOpen⟩ := explained
  exact ⟨fun _ => loaded begun, passes, rest, history, complete, goesOn rest isOpen⟩

theorem explained_close (state : State) (last : List Effect) (explained : Explained state)
    (begun : state.phase ≠ .starting)
    (closes : ∀ rest, Open state.cfg rest state.phase → Pass state.cfg (rest ++ last)) :
    Explained { state with phase := .testing, history := state.history ++ last } := by
  obtain ⟨loaded, passes, rest, history, complete, isOpen⟩ := explained
  refine ⟨fun _ => loaded begun, passes ++ [(state.cfg, rest ++ last)], [], ?_, ?_, rfl⟩
  · simp [history]
  · intro pass member
    rcases List.mem_append.mp member with before | new
    · exact complete pass before
    · obtain rfl := List.mem_singleton.mp new
      exact ⟨loaded begun, closes rest isOpen⟩

theorem explained_capture (state : State) (now : Int64) (io : CaptureIo)
    (explained : Explained state) (capturing : state.phase = .capturing) :
    Explained (captureStep state now io) := by
  apply explained_note _ _ _ explained (by rw [capturing]; nofun)
  rw [capturing]
  rintro _ rfl
  cases result : (captureImage state.cfg now io).ok with
  | true =>
      refine ⟨le_rfl, by omega, [], ⟨now, io, result, rfl, rfl⟩, fun rest tries => ?_⟩
      rwa [List.nil_append]
  | false => exact ⟨now, io, result, rfl⟩

theorem explained_upload (state : State) (path : Bytes) (attempt : Int) (now : Int64)
    (io : UploadIo) (explained : Explained state)
    (uploading : state.phase = .uploading path attempt)
    (left : attempt ≤ state.cfg.maxRetries.toInt) :
    Explained (uploadStep state path attempt now io) := by
  apply explained_note _ _ _ explained (by rw [uploading]; nofun)
  rw [uploading]
  rintro rest ⟨first, -, tried, taken, soFar⟩
  have more := taken_more _ _ _ _ [.upload (uploadImage state.cfg path now io)] taken
  cases result : (uploadImage state.cfg path now io).ok with
  | true =>
      refine ⟨le_rfl, by omega, path, _, soFar _ (.taken attempt now io left result), ?_⟩
      simpa using more
  | false =>
      have next := tries_next _ _ _ _ now io soFar left result
      by_cases again : attempt < state.cfg.maxRetries.toInt
      · rw [if_pos again] at next
        rw [if_neg Bool.false_ne_true, if_pos again]
        refine ⟨first, again, _, more, ?_⟩
        simpa using next
      · rw [if_neg again] at next
        rw [if_neg Bool.false_ne_true, if_neg again]
        exact ⟨by omega, by omega, _, more, next⟩

theorem explained_step (state : State) (label : Label) (next : State)
    (explained : Explained state) (moved : step state label = some next) : Explained next := by
  cases step_moves state label next moved with
  | signal hup alive => exact explained
  | start file starting =>
      -- The configuration changes between two passes only.
      obtain ⟨-, passes, rest, history, complete, isOpen⟩ := explained
      rw [starting] at isOpen
      exact ⟨fun _ => ⟨state.cfg, file, rfl⟩, passes, rest, history, complete, isOpen⟩
  | test testing =>
      apply explained_move state _ state.running state.reload explained (by rw [testing]; nofun)
      rw [testing]
      rintro _ rfl
      cases state.running <;> rfl
  | check checking =>
      apply explained_move state _ state.running state.reload explained (by rw [checking]; nofun)
      rw [checking]
      rintro _ rfl
      cases state.reload <;> rfl
  | load file loading =>
      obtain ⟨-, passes, rest, history, complete, isOpen⟩ := explained
      rw [loading] at isOpen
      exact ⟨fun _ => ⟨state.cfg, file, rfl⟩, passes, rest, history, complete, isOpen⟩
  | clear clearing =>
      apply explained_move state _ state.running false explained (by rw [clearing]; nofun)
      rw [clearing]
      exact fun _ none => none
  | capture now io capturing => exact explained_capture state now io explained capturing
  | failed failed =>
      apply explained_close state _ explained (by rw [failed]; nofun)
      rw [failed]
      rintro _ ⟨now, io, bad, rfl⟩
      exact .failed now io bad
  | upload path attempt now io uploading left =>
      exact explained_upload state path attempt now io explained uploading left
  | exhausted path attempt uploading past =>
      apply explained_move state _ state.running state.reload explained (by rw [uploading]; nofun)
      rw [uploading]
      rintro rest ⟨-, -, tried, taken, soFar⟩
      -- No try is left: what was tried is all there is.
      have whole := soFar [] (.none attempt past)
      refine ⟨le_rfl, by omega, path, _, whole, ?_⟩
      simpa using taken
  | retry path attempt retrying =>
      apply explained_note _ _ _ explained (by rw [retrying]; nofun)
      rw [retrying]
      rintro rest ⟨first, before, tried, taken, soFar⟩
      exact ⟨by omega, by omega, _, taken_more _ _ _ _ _ taken, soFar⟩
  | wait i waiting more running =>
      apply explained_note _ _ _ explained (by rw [waiting]; nofun)
      rw [waiting]
      rintro rest ⟨low, high, path, tries, tried, taken⟩
      refine ⟨by omega, by omega, path, tries, tried, ?_⟩
      have count : (i + 1).toNat = i.toNat + 1 := by omega
      -- One more second of the sleep at the end of the pass.
      rw [count, List.replicate_succ', ← List.append_assoc]
      exact taken_more _ _ _ _ _ taken
  | ended i waiting last =>
      have closed := explained_close state [] explained (by rw [waiting]; nofun) (by
        rw [waiting]
        rintro rest ⟨low, high, path, tries, tried, now, io, good, rfl, rfl⟩
        rw [List.append_nil]
        exact .captured now io tries _ good tried (by omega))
      rwa [List.append_nil] at closed

theorem open_prefix (cfg : UploaderConfig) (rest : List Effect) (phase : Phase)
    (isOpen : Open cfg rest phase) : rest = [] ∨ ∃ more, Pass cfg (rest ++ more) := by
  have completes (path : Bytes) (attempt : Int) : ∃ more, Tries cfg path attempt more := by
    by_cases left : attempt ≤ cfg.maxRetries.toInt
    · exact ⟨_, .taken attempt 0 ⟨true, true, .status 200⟩ left rfl⟩
    · exact ⟨[], .none attempt (not_le.mp left)⟩
  have finishes (path : Bytes) (tries more : List Effect) (taken : Taken cfg path rest tries)
      (whole : Tries cfg path 1 (tries ++ more)) : ∃ more, Pass cfg (rest ++ more) := by
    obtain ⟨now, io, good, rfl, rfl⟩ := taken
    have pass := Pass.captured now io _ 0 good whole (Nat.zero_le _)
    exact ⟨more, by simpa using pass⟩
  cases phase with
  | failed =>
      obtain ⟨now, io, bad, rfl⟩ := isOpen
      exact .inr ⟨_, .failed now io bad⟩
  | uploading path attempt =>
      obtain ⟨-, -, tried, taken, soFar⟩ := isOpen
      obtain ⟨more, later⟩ := completes path attempt
      exact .inr (finishes path tried more taken (soFar more later))
  | retrying path attempt =>
      obtain ⟨-, -, tried, taken, soFar⟩ := isOpen
      obtain ⟨more, later⟩ := completes path (attempt + 1)
      refine .inr (finishes path tried (.sleep cfg.retryDelay.toUInt32 :: more) taken ?_)
      simpa using soFar more later
  | waiting i =>
      obtain ⟨-, high, path, tries, tried, now, io, good, rfl, rfl⟩ := isOpen
      exact .inr ⟨[], by simpa using Pass.captured now io tries _ good tried (by omega)⟩
  | _ => exact .inl isOpen

/-! ## What a pass sends -/

def Effect.uploaded : Effect → Option Upload
  | .upload result => some result
  | _ => none

def Effect.captured : Effect → Option Capture
  | .capture result => some result
  | _ => none

def uploads (effects : List Effect) : List Upload := effects.filterMap Effect.uploaded
def captures (effects : List Effect) : List Capture := effects.filterMap Effect.captured

@[simp] theorem uploads_upload (result : Upload) (rest : List Effect) :
    uploads (.upload result :: rest) = result :: uploads rest := rfl

@[simp] theorem uploads_capture (result : Capture) (rest : List Effect) :
    uploads (.capture result :: rest) = uploads rest := rfl

@[simp] theorem captures_upload (result : Upload) (rest : List Effect) :
    captures (.upload result :: rest) = captures rest := rfl

@[simp] theorem captures_capture (result : Capture) (rest : List Effect) :
    captures (.capture result :: rest) = result :: captures rest := rfl

theorem uploads_append (left right : List Effect) :
    uploads (left ++ right) = uploads left ++ uploads right := List.filterMap_append

theorem captures_append (left right : List Effect) :
    captures (left ++ right) = captures left ++ captures right := List.filterMap_append

theorem uploads_sleeps (count : Nat) : uploads (List.replicate count (.sleep 1)) = [] := by
  rw [uploads, List.filterMap_replicate]
  rfl

theorem captures_sleeps (count : Nat) : captures (List.replicate count (.sleep 1)) = [] := by
  rw [captures, List.filterMap_replicate]
  rfl

/-- Tries of one picture with this many left: all but the last are refused, and a picture no try of
which was taken has used them up. -/
structure Orderly (cfg : UploaderConfig) (path : Bytes) (left : Nat) (tries : List Upload) :
    Prop where
  few : tries.length ≤ left
  refused : ∀ upload ∈ tries.dropLast, upload.ok = false
  given : (∀ upload ∈ tries, upload.ok = false) → tries.length = left
  addressed : ∀ upload ∈ tries, ∀ request ∈ upload.request, ∃ now listed,
    request = requestOf cfg path now listed

theorem uploadImage_request (cfg : UploaderConfig) (path : Bytes) (now : Int64) (io : UploadIo) :
    ∀ request ∈ (uploadImage cfg path now io).request, ∃ now listed,
      request = requestOf cfg path now listed := by
  intro request member
  unfold uploadImage at member
  split at member
  · obtain rfl := Option.some.inj member
    exact ⟨now, io.listed, rfl⟩
  · cases member

theorem tries_orderly (cfg : UploaderConfig) (path : Bytes) (attempt : Int) (tries : List Effect)
    (tried : Tries cfg path attempt tries) :
    captures tries = [] ∧
      Orderly cfg path (cfg.maxRetries.toInt + 1 - attempt).toNat (uploads tries) := by
  -- By induction on the tries: the sleeps between them send nothing.
  induction tried with
  | none attempt past => exact ⟨rfl, Nat.zero_le _, nofun, fun _ => by simp [uploads]; omega, nofun⟩
  | taken attempt now io left ok =>
      refine ⟨rfl, ?_, nofun, fun refused => ?_, ?_⟩
      · simp only [uploads, List.filterMap_cons, Effect.uploaded, List.filterMap_nil,
          List.length_singleton]
        omega
      · have bad := refused _ List.mem_cons_self
        rw [ok] at bad
        cases bad
      · intro upload member
        obtain rfl := List.mem_singleton.mp member
        exact uploadImage_request cfg path now io
  | refused attempt now io rest left bad later ih =>
      obtain ⟨noCapture, few, refused, given, addressed⟩ := ih
      have pause : uploads (if attempt < cfg.maxRetries.toInt then [.sleep cfg.retryDelay.toUInt32]
            else []) = [] ∧
          captures (if attempt < cfg.maxRetries.toInt then [.sleep cfg.retryDelay.toUInt32]
            else []) = [] := by
        split <;> exact ⟨rfl, rfl⟩
      have sent : uploads (.upload (uploadImage cfg path now io) ::
          ((if attempt < cfg.maxRetries.toInt then [.sleep cfg.retryDelay.toUInt32] else []) ++
            rest)) = uploadImage cfg path now io :: uploads rest := by
        rw [uploads_upload, uploads_append, pause.1, List.nil_append]
      have taken : captures (.upload (uploadImage cfg path now io) ::
          ((if attempt < cfg.maxRetries.toInt then [.sleep cfg.retryDelay.toUInt32] else []) ++
            rest)) = captures rest := by
        rw [captures_upload, captures_append, pause.2, List.nil_append]
      rw [sent, taken]
      refine ⟨noCapture, ?_, ?_, fun all => ?_, ?_⟩
      · rw [List.length_cons]
        omega
      · intro upload member
        cases others : uploads rest with
        | nil =>
            rw [others] at member
            cases member
        | cons next more =>
            rw [others, List.dropLast_cons_cons] at member
            rcases List.mem_cons.mp member with rfl | inRest
            · exact bad
            · exact refused upload (by rw [others]; exact inRest)
      · have used := given fun upload member => all upload (List.mem_cons_of_mem _ member)
        rw [List.length_cons, used]
        omega
      · intro upload member
        rcases List.mem_cons.mp member with rfl | inRest
        · exact uploadImage_request cfg path now io
        · exact addressed upload inRest

/-- One picture, taken once, and sent nowhere unless it was taken. -/
theorem pass_orderly (cfg : UploaderConfig) (effects : List Effect) (pass : Pass cfg effects) :
    ∃ capture, captures effects = [capture] ∧
      if capture.ok then
        Orderly cfg capture.path cfg.maxRetries.toInt.toNat (uploads effects)
      else uploads effects = [] := by
  cases pass with
  | failed now io bad => exact ⟨_, rfl, by rw [bad]; rfl⟩
  | captured now io tries waits good tried few =>
      obtain ⟨none, orderly⟩ := tries_orderly cfg _ 1 tries tried
      refine ⟨captureImage cfg now io, ?_, ?_⟩
      · rw [captures_capture, captures_append, none, captures_sleeps]
        rfl
      · rw [if_pos good, uploads_capture, uploads_append, uploads_sleeps, List.append_nil]
        rwa [Int.add_sub_cancel] at orderly

theorem explained_start (state : State) (starts : Starts state) : Explained state := by
  obtain ⟨cfg, rfl⟩ := starts
  exact ⟨fun begun => absurd rfl begun, [], [], rfl, nofun, rfl⟩

/-- However signals fall into it, a run of the daemon is a row of passes, each under one loaded
configuration: one picture at a time, tried until it is taken or its tries are used up. -/
theorem history_passes (state : State) (reached : Reachable step Starts state) :
    ∃ passes : List (UploaderConfig × List Effect), ∃ rest,
      state.history = passes.flatMap Prod.snd ++ rest ∧
      (∀ pass ∈ passes, Loaded pass.1 ∧ Pass pass.1 pass.2 ∧
        ∃ capture, captures pass.2 = [capture] ∧
          if capture.ok then
            Orderly pass.1 capture.path pass.1.maxRetries.toInt.toNat (uploads pass.2)
          else uploads pass.2 = []) ∧
      (rest = [] ∨ Loaded state.cfg ∧ ∃ more, Pass state.cfg (rest ++ more)) := by
  obtain ⟨loaded, passes, rest, history, complete, isOpen⟩ :=
    reachable_invariant step Starts Explained explained_start explained_step state reached
  refine ⟨passes, rest, history, fun pass member => ?_, ?_⟩
  · obtain ⟨from_, whole⟩ := complete pass member
    exact ⟨from_, whole, pass_orderly pass.1 pass.2 whole⟩
  · rcases open_prefix state.cfg rest state.phase isOpen with none | more
    · exact .inl none
    · by_cases starting : state.phase = .starting
      · rw [starting] at isOpen
        exact .inl isOpen
      · exact .inr ⟨loaded starting, more⟩

def launched : State := ⟨.starting, cleared, true, false, []⟩

/-- A picture is taken and refused once; SIGTERM arrives while the daemon sleeps. -/
def refusedOnce : List Label :=
  [.load none, .go, .go, .capture 1700000000 ⟨true, true, 0, some 4096⟩,
    .upload 1700000001 ⟨true, true, .failed⟩, .signal false]

def takenThen : List Label := [.go, .upload 1700000006 ⟨true, true, .status 201⟩, .go, .go]

theorem history_passes_taken : ∃ state,
    exec step launched (refusedOnce ++ takenThen) = some state ∧ state.phase = .stopped ∧
      (uploads state.history).map Upload.ok = [false, true] ∧
      ∃ passes : List (UploaderConfig × List Effect), ∃ rest,
        state.history = passes.flatMap Prod.snd ++ rest ∧
        (∀ pass ∈ passes, Loaded pass.1 ∧ Pass pass.1 pass.2 ∧
          ∃ capture, captures pass.2 = [capture] ∧
            if capture.ok then
              Orderly pass.1 capture.path pass.1.maxRetries.toInt.toNat (uploads pass.2)
            else uploads pass.2 = []) ∧
        (rest = [] ∨ Loaded state.cfg ∧ ∃ more, Pass state.cfg (rest ++ more)) := by
  have ends : (exec step launched (refusedOnce ++ takenThen)).map
      (fun state => (state.phase, (uploads state.history).map Upload.ok)) =
        some (.stopped, [false, true]) := by decide +kernel
  obtain ⟨state, ran, held⟩ := Option.map_eq_some_iff.mp ends
  obtain ⟨stopped, sent⟩ := Prod.mk.inj held
  exact ⟨state, ran, stopped, sent, history_passes state ⟨launched, _, ⟨cleared, rfl⟩, ran⟩⟩

/-! ## Stopping -/

def Label.own : Label → Bool
  | .signal _ => false
  | _ => true

/-- How much is done at most, once the daemon is told to stop, before it gets to a point: the
tries left are those of the configuration in use. -/
def Winding (cfg : UploaderConfig) (spent sent taken : Nat) : Phase → Prop
  | .starting | .checking => spent = 0 ∧ sent = 0 ∧ taken = 0
  | .loading => spent ≤ 1 ∧ sent = 0 ∧ taken = 0
  | .clearing => spent ≤ 2 ∧ sent = 0 ∧ taken = 0
  | .capturing => spent ≤ 3 ∧ sent = 0 ∧ taken = 0
  | .failed => spent ≤ 4 ∧ sent = 0 ∧ taken ≤ 1
  | .uploading _ attempt => 1 ≤ attempt ∧ attempt ≤ max 0 cfg.maxRetries.toInt + 1 ∧
      spent ≤ 2 + 2 * attempt ∧ sent < attempt ∧ taken ≤ 1
  | .retrying _ attempt => 1 ≤ attempt ∧ attempt < cfg.maxRetries.toInt ∧
      spent ≤ 3 + 2 * attempt ∧ sent ≤ attempt ∧ taken ≤ 1
  | .waiting _ => spent ≤ 5 + 2 * cfg.maxRetries.toInt.toNat ∧
      sent ≤ cfg.maxRetries.toInt.toNat ∧ taken ≤ 1
  | .testing => spent ≤ 6 + 2 * cfg.maxRetries.toInt.toNat ∧
      sent ≤ cfg.maxRetries.toInt.toNat ∧ taken ≤ 1
  | .stopped => spent ≤ 7 + 2 * cfg.maxRetries.toInt.toNat ∧
      sent ≤ cfg.maxRetries.toInt.toNat ∧ taken ≤ 1

/-- What has been done since the daemon was told to stop. -/
def Stopping (before : List Effect) (past : List Label) (state : State) : Prop :=
  state.running = false ∧ ∃ later, state.history = before ++ later ∧
    Winding state.cfg (past.countP Label.own) (uploads later).length (captures later).length
      state.phase

section
variable (before : List Effect) (past : List Label) (state : State)

theorem spent_own (label : Label) (own : label.own = true) :
    (past ++ [label]).countP Label.own = past.countP Label.own + 1 := by
  rw [List.countP_append, List.countP_singleton, if_pos own]

theorem stopping_move (label : Label) (next : State) (stopping : Stopping before past state)
    (own : label.own = true) (running : next.running = state.running)
    (same : next.history = state.history)
    (wound : ∀ spent sent taken, Winding state.cfg spent sent taken state.phase →
      Winding next.cfg (spent + 1) sent taken next.phase) :
    Stopping before (past ++ [label]) next := by
  obtain ⟨ended, later, history, winding⟩ := stopping
  refine ⟨running.trans ended, later, same.trans history, ?_⟩
  rw [spent_own past label own]
  exact wound _ _ _ winding

theorem stopping_note (label : Label) (effect : Effect) (phase : Phase)
    (stopping : Stopping before past state) (own : label.own = true)
    (wound : ∀ spent sent taken, Winding state.cfg spent sent taken state.phase →
      Winding state.cfg (spent + 1) (sent + (uploads [effect]).length)
        (taken + (captures [effect]).length) phase) :
    Stopping before (past ++ [label]) (state.note effect phase) := by
  obtain ⟨ended, later, history, winding⟩ := stopping
  refine ⟨ended, later ++ [effect], ?_, ?_⟩
  · simp only [State.note, history, List.append_assoc]
  · rw [spent_own past label own, uploads_append, captures_append, List.length_append,
      List.length_append]
    exact wound _ _ _ winding

theorem stopping_upload (path : Bytes) (attempt : Int) (now : Int64) (io : UploadIo)
    (stopping : Stopping before past state) (uploading : state.phase = .uploading path attempt)
    (left : attempt ≤ state.cfg.maxRetries.toInt) :
    Stopping before (past ++ [.upload now io]) (uploadStep state path attempt now io) := by
  refine stopping_note before past state _ _ _ stopping rfl ?_
  intro spent sent taken winding
  change Winding state.cfg (spent + 1) (sent + 1) (taken + 0) _
  rw [uploading] at winding
  split
  · simp only [Winding] at winding ⊢
    omega
  · split
    · simp only [Winding] at winding ⊢
      omega
    · simp only [Winding] at winding ⊢
      omega

theorem stopping_step (label : Label) (next : State) (stopping : Stopping before past state)
    (moved : step state label = some next) : Stopping before (past ++ [label]) next := by
  cases step_moves state label next moved with
  | signal hup alive =>
      obtain ⟨running, later, history, winding⟩ := stopping
      refine ⟨by rw [running, Bool.and_false], later, history, ?_⟩
      rw [List.countP_append]
      exact winding
  | start file starting =>
      refine stopping_move before past state _ _ stopping rfl rfl rfl ?_
      intro spent sent taken winding
      rw [starting] at winding
      simp only [Winding] at winding ⊢
      omega
  | test testing =>
      refine stopping_move before past state _ _ stopping rfl rfl rfl ?_
      intro spent sent taken winding
      rw [testing] at winding
      rw [stopping.1]
      -- `running` is 0, so the loop is left.
      simp only [Winding, Bool.false_eq_true, if_false] at winding ⊢
      omega
  | check checking =>
      refine stopping_move before past state _ _ stopping rfl rfl rfl ?_
      intro spent sent taken winding
      rw [checking] at winding
      cases state.reload
      · simp only [Winding, Bool.false_eq_true, if_false] at winding ⊢
        omega
      · simp only [Winding, if_true] at winding ⊢
        omega
  | load file loading =>
      refine stopping_move before past state _ _ stopping rfl rfl rfl ?_
      intro spent sent taken winding
      rw [loading] at winding
      simp only [Winding] at winding ⊢
      omega
  | clear clearing =>
      refine stopping_move before past state _ _ stopping rfl rfl rfl ?_
      intro spent sent taken winding
      rw [clearing] at winding
      simp only [Winding] at winding ⊢
      omega
  | capture now io capturing =>
      refine stopping_note before past state _ _ _ stopping rfl ?_
      intro spent sent taken winding
      change Winding state.cfg (spent + 1) (sent + 0) (taken + 1) _
      rw [capturing] at winding
      split
      · simp only [Winding] at winding ⊢
        omega
      · simp only [Winding] at winding ⊢
        omega
  | failed failed =>
      refine stopping_note before past state _ _ _ stopping rfl ?_
      intro spent sent taken winding
      change Winding state.cfg (spent + 1) (sent + 0) (taken + 0) _
      rw [failed] at winding
      simp only [Winding] at winding ⊢
      omega
  | upload path attempt now io uploading left =>
      exact stopping_upload before past state path attempt now io stopping uploading left
  | exhausted path attempt uploading past' =>
      refine stopping_move before past state _ _ stopping rfl rfl rfl ?_
      intro spent sent taken winding
      rw [uploading] at winding
      simp only [Winding] at winding ⊢
      omega
  | retry path attempt retrying =>
      refine stopping_note before past state _ _ _ stopping rfl ?_
      intro spent sent taken winding
      change Winding state.cfg (spent + 1) (sent + 0) (taken + 0) _
      rw [retrying] at winding
      simp only [Winding] at winding ⊢
      omega
  | wait i waiting more stillRunning =>
      -- The sleep between two passes ends with `running`.
      rw [stopping.1] at stillRunning
      cases stillRunning
  | ended i waiting last =>
      refine stopping_move before past state _ _ stopping rfl rfl rfl ?_
      intro spent sent taken winding
      rw [waiting] at winding
      simp only [Winding] at winding ⊢
      omega

end

theorem goes_on (state : State) (alive : state.phase ≠ .stopped) :
    ∃ label, label.own = true ∧ (step state label).isSome = true := by
  cases phase : state.phase with
  | stopped => exact absurd phase alive
  | starting | loading => exact ⟨.load none, rfl, by simp only [step, phase, Option.isSome_some]⟩
  | capturing =>
      exact ⟨.capture 0 ⟨true, true, 0, none⟩, rfl, by simp only [step, phase, Option.isSome_some]⟩
  | uploading path attempt =>
      by_cases left : attempt ≤ state.cfg.maxRetries.toInt
      · exact ⟨.upload 0 ⟨true, true, .failed⟩, rfl,
          by simp only [step, phase, if_pos left, Option.isSome_some]⟩
      · exact ⟨.go, rfl, by simp only [step, phase, if_neg left, Option.isSome_some]⟩
  | waiting i =>
      refine ⟨.go, rfl, ?_⟩
      simp only [step, phase]
      split <;> rfl
  | _ => exact ⟨.go, rfl, by simp only [step, phase, Option.isSome_some]⟩

theorem winding_begins (state : State) (explained : Explained state) :
    Winding state.cfg 0 0 0 state.phase := by
  obtain ⟨-, passes, rest, -, -, isOpen⟩ := explained
  cases phase : state.phase with
  | uploading path attempt =>
      rw [phase] at isOpen
      obtain ⟨first, most, -⟩ := isOpen
      exact ⟨first, most, by omega, by omega, Nat.zero_le _⟩
  | retrying path attempt =>
      rw [phase] at isOpen
      obtain ⟨first, before, -⟩ := isOpen
      exact ⟨first, before, by omega, by omega, Nat.zero_le _⟩
  | starting | checking => exact ⟨rfl, rfl, rfl⟩
  | loading | clearing | capturing => exact ⟨Nat.zero_le _, rfl, rfl⟩
  | failed => exact ⟨Nat.zero_le _, rfl, Nat.zero_le _⟩
  | _ => exact ⟨Nat.zero_le _, Nat.zero_le _, Nat.zero_le _⟩

theorem winding_bounds (cfg : UploaderConfig) (spent sent taken : Nat) (phase : Phase)
    (winding : Winding cfg spent sent taken phase) :
    spent ≤ 2 * cfg.maxRetries.toInt.toNat + 7 ∧ sent ≤ cfg.maxRetries.toInt.toNat ∧ taken ≤ 1 := by
  cases phase <;> simp only [Winding] at winding <;> omega

/-- Told to stop at any point of any run, the daemon takes at most one more picture, makes at most
`max_retries` more uploads and a bounded number of steps, and none of them can block for good,
whatever signals come on top. -/
theorem stops_soon (state : State) (reached : Reachable step Starts state)
    (told : state.running = false) (labels : List Label) (after : State)
    (ran : exec step state labels = some after) :
    after.running = false ∧
    (∃ later, after.history = state.history ++ later ∧
      (uploads later).length ≤ after.cfg.maxRetries.toInt.toNat ∧ (captures later).length ≤ 1) ∧
    labels.countP Label.own ≤ 2 * after.cfg.maxRetries.toInt.toNat + 7 ∧
    (after.phase = .stopped ∨ ∃ label, label.own = true ∧ (step after label).isSome = true) := by
  have explained : Explained state :=
    reachable_invariant step Starts Explained explained_start explained_step state reached
  have begins : Stopping state.history [] state :=
    ⟨told, [], (List.append_nil _).symm, winding_begins state explained⟩
  obtain ⟨still, later, history, winding⟩ := exec_past_invariant step (fun _ => True)
    (Stopping state.history)
    (fun past before label next stopping _ moved =>
      stopping_step state.history past before label next stopping moved)
    [] state after labels begins (fun _ _ => trivial) ran
  obtain ⟨spent, sent, taken⟩ := winding_bounds _ _ _ _ _ winding
  refine ⟨still, ⟨later, history, sent, taken⟩, spent, ?_⟩
  by_cases stopped : after.phase = .stopped
  · exact .inl stopped
  · exact .inr (goes_on after stopped)

theorem stops_soon_taken : ∃ state after,
    exec step launched refusedOnce = some state ∧ exec step state takenThen = some after ∧
      after.running = false ∧
      (∃ later, after.history = state.history ++ later ∧
        (uploads later).length ≤ after.cfg.maxRetries.toInt.toNat ∧ (captures later).length ≤ 1) ∧
      takenThen.countP Label.own ≤ 2 * after.cfg.maxRetries.toInt.toNat + 7 ∧
      (after.phase = .stopped ∨
        ∃ label, label.own = true ∧ (step after label).isSome = true) := by
  have told : (exec step launched refusedOnce).map State.running = some false := by decide +kernel
  have ends : ((exec step launched refusedOnce).bind fun state =>
      exec step state takenThen).isSome = true := by decide +kernel
  obtain ⟨state, ran, stopped⟩ := Option.map_eq_some_iff.mp told
  rw [ran] at ends
  obtain ⟨after, ended⟩ := Option.isSome_iff_exists.mp ends
  exact ⟨state, after, ran, ended, stops_soon state ⟨launched, _, ⟨cleared, rfl⟩, ran⟩ stopped
    takenThen after ended⟩

end SensorNode.UploadLoop
