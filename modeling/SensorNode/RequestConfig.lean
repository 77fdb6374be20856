import SensorNode.StepSystem
import SensorNode.LineStream

/-!
The configuration behind each request of camera-stream. `push_thread` builds its
header list once and reads the URL and the device id through a pointer into `main`
at every post, `main` loads the configuration again on SIGHUP. A load is one step;
a post is three, one for each read and one for sending, so that a load can fall
between them.
-/

namespace SensorNode.RequestConfig

open StepSystem LineStream

/-- The fields of `StreamConfig` that a request takes. -/
structure Config where
  serverStreamUrl : Bytes
  deviceId : Bytes
  apiKey : Bytes
  deriving DecidableEq

/-- What `post_jpeg` is given; `headers` is NULL when the list could not be built. -/
structure Request where
  url : Bytes
  deviceId : Bytes
  headers : Option Bytes
  deriving DecidableEq

def apiKeyHeader (apiKey : Bytes) : Bytes := (ascii "X-API-Key: " ++ apiKey).take 319

def makeApiHeaders (appended : Bool) (apiKey : Bytes) : Option Bytes :=
  if appended then some (apiKeyHeader apiKey) else none

/-- Where `post_jpeg` is, with what it has read: the device id is copied into the
form first, the URL after it. -/
inductive Post where
  | entered
  | identified (deviceId : Bytes)
  | ready (deviceId url : Bytes)
  deriving DecidableEq

inductive Source where
  | live
  | stored (left : Nat)
  deriving DecidableEq

/-- Where `push_thread` is; `draining` has as many posts left in its batch. -/
inductive Push where
  | created
  | waiting
  | posting (source : Source) (post : Post)
  | draining (left : Nat)
  deriving DecidableEq

/-- `posts` pairs each request with the configuration in force when it was sent. -/
structure State where
  cfg : Config
  push : Push
  hdrs : Option Bytes
  curlStream : Bool
  posts : List (Request × Config)
  deriving DecidableEq

def Starts (state : State) : Prop := ∃ cfg, state = ⟨cfg, .created, none, false, []⟩

inductive Label where
  | reload (loaded : Config)
  | start (appended curl : Bool)
  | frame (copied : Bool)
  | readDeviceId
  | readUrl
  | perform (posted : Bool)
  | drain
  | drained

/-- A live post that is accepted is followed by a batch of five. -/
def afterPost : Source → Bool → Push
  | .live, true => .draining 5
  | .stored left, true => .draining left
  | _, false => .waiting

def step (state : State) : Label → Option State
  | .reload loaded => some { state with cfg := loaded }
  | .start appended curl =>
      match state.push with
      | .created => some { state with
          push := .waiting, hdrs := makeApiHeaders appended state.cfg.apiKey, curlStream := curl }
      | _ => none
  | .frame copied =>
      match state.push with
      | .waiting => some { state with
          push := if copied && state.curlStream then .posting .live .entered else .waiting }
      | _ => none
  | .readDeviceId =>
      match state.push with
      | .posting source .entered =>
          some { state with push := .posting source (.identified state.cfg.deviceId) }
      | _ => none
  | .readUrl =>
      match state.push with
      | .posting source (.identified deviceId) =>
          some { state with push := .posting source (.ready deviceId state.cfg.serverStreamUrl) }
      | _ => none
  | .perform posted =>
      match state.push with
      | .posting source (.ready deviceId url) => some { state with
          push := afterPost source posted
          posts := state.posts ++ [(⟨url, deviceId, state.hdrs⟩, state.cfg)] }
      | _ => none
  | .drain =>
      match state.push with
      | .draining (left + 1) => some { state with push := .posting (.stored left) .entered }
      | _ => none
  | .drained =>
      match state.push with
      | .draining _ => some { state with push := .waiting }
      | _ => none

def requestOf (cfg : Config) : Request :=
  ⟨cfg.serverStreamUrl, cfg.deviceId, some (apiKeyHeader cfg.apiKey)⟩

/-- Every request belongs to the configuration that was in force. -/
def Consistent (state : State) : Prop := ∀ post ∈ state.posts, post.1 = requestOf post.2

instance (state : State) : Decidable (Consistent state) :=
  inferInstanceAs (Decidable (∀ post ∈ state.posts, _))

def Post.Reads (cfg : Config) : Post → Prop
  | .entered => True
  | .identified deviceId => deviceId = cfg.deviceId
  | .ready deviceId url => deviceId = cfg.deviceId ∧ url = cfg.serverStreamUrl

instance (cfg : Config) (post : Post) : Decidable (post.Reads cfg) := by
  unfold Post.Reads
  split <;> infer_instance

/-- A post on its way has read nothing that differs from the configuration. -/
def Push.Reads (cfg : Config) : Push → Prop
  | .posting _ post => post.Reads cfg
  | _ => True

instance (cfg : Config) (push : Push) : Decidable (push.Reads cfg) := by
  unfold Push.Reads
  split <;> infer_instance

/-- The header list is built, no reload changes the key after that, and none changes
what a post on its way has read. -/
def KeepsRequest (state : State) : Label → Prop
  | .start appended _ => appended = true
  | .reload loaded =>
      (state.push ≠ .created → loaded.apiKey = state.cfg.apiKey) ∧ state.push.Reads loaded
  | _ => True

instance (state : State) (label : Label) : Decidable (KeepsRequest state label) := by
  unfold KeepsRequest
  split <;> infer_instance

structure Current (state : State) : Prop where
  headers : state.push ≠ .created → state.hdrs = some (apiKeyHeader state.cfg.apiKey)
  reads : state.push.Reads state.cfg
  consistent : Consistent state

theorem Current.move {state : State} (current : Current state) (running : state.push ≠ .created)
    (push : Push) (reads : push.Reads state.cfg) : Current { state with push := push } :=
  ⟨fun _ => current.headers running, reads, current.consistent⟩

theorem afterPost_reads (cfg : Config) (source : Source) (posted : Bool) :
    (afterPost source posted).Reads cfg := by
  cases source <;> cases posted <;> trivial

theorem Current.perform {state : State} (current : Current state) (source : Source)
    (deviceId url : Bytes) (ready : state.push = .posting source (.ready deviceId url)) :
    (⟨url, deviceId, state.hdrs⟩ : Request) = requestOf state.cfg := by
  have reads := current.reads
  simp only [ready, Push.Reads, Post.Reads] at reads
  have headers := current.headers (by simp [ready])
  simp only [requestOf, reads.1, reads.2, headers]

theorem current_step (state : State) (label : Label) (next : State) (current : Current state)
    (keeps : KeepsRequest state label) (moved : step state label = some next) :
    Current next := by
  cases label with
  | reload loaded =>
      cases moved
      refine ⟨fun running => ?_, keeps.2, current.consistent⟩
      simp only [keeps.1 running]
      -- The reload keeps the key, and what a post has read.
      exact current.headers running
  | start appended curl =>
      simp only [step] at moved
      split at moved <;> cases moved
      refine ⟨fun _ => ?_, trivial, current.consistent⟩
      have built : appended = true := keeps
      simp only [makeApiHeaders, built, if_true]
  | frame copied =>
      simp only [step] at moved
      split at moved
      · next phase =>
        cases moved
        apply current.move (by simp [phase])
        split <;> trivial
      · cases moved
  | readDeviceId =>
      simp only [step] at moved
      split at moved
      · next source phase =>
        cases moved
        exact current.move (by simp [phase]) _ rfl
      · cases moved
  | readUrl =>
      simp only [step] at moved
      split at moved
      · next source deviceId phase =>
        cases moved
        have reads := current.reads
        simp only [phase] at reads
        exact current.move (by simp [phase]) _ ⟨reads, rfl⟩
      · cases moved
  | perform posted =>
      simp only [step] at moved
      split at moved
      · next source deviceId url phase =>
        cases moved
        refine ⟨fun _ => current.headers (by simp [phase]), afterPost_reads _ _ _, ?_⟩
        intro post member
        rcases List.mem_append.mp member with earlier | latest
        · exact current.consistent post earlier
        · rw [List.mem_singleton.mp latest]
          -- Both reads were of the configuration that is still in force.
          exact current.perform source deviceId url phase
      · cases moved
  | drain | drained =>
      simp only [step] at moved
      split at moved
      · next left phase =>
        cases moved
        exact current.move (by simp [phase]) _ trivial
      · cases moved

/-- In a run that keeps what requests are made of, every request is of one
configuration, the latest. -/
theorem requests_consistent (state : State)
    (reached : ReachableWithin step Starts KeepsRequest state) : Consistent state := by
  have current : Current state := by
    apply reachable_within_invariant step Starts Current KeepsRequest _ current_step state
      reached
    rintro _ ⟨cfg, rfl⟩
    exact ⟨fun running => absurd rfl running, trivial, nofun⟩
  exact current.consistent

def first : Config := ⟨ascii "http://a/push", ascii "rpi4", ascii "one"⟩

def loaded : State := ⟨first, .created, none, false, []⟩

def post (posted : Bool) : List Label := [.readDeviceId, .readUrl, .perform posted]

/-- A reload moves to another server under the same key, before the URL is read. -/
def moves : List Label :=
  [.start true true, .frame true] ++ post true ++ .drain :: post true ++
    [.drain, .readDeviceId, .reload { first with serverStreamUrl := ascii "http://b/push" },
      .readUrl, .perform false]

theorem requests_consistent_moves :
    ∃ state, exec step loaded moves = some state ∧ state.posts.length = 3 ∧ Consistent state :=
  ⟨_, rfl, rfl, requests_consistent _ ⟨loaded, moves, ⟨first, rfl⟩, by decide, rfl⟩⟩

/-- After a reload with a new key the old key is still sent. -/
def rekeyed : List Label :=
  [.start true true, .reload { first with apiKey := ascii "two" }, .frame true] ++ post true

theorem requests_inconsistent : ¬ ∀ state, Reachable step Starts state → Consistent state := by
  intro always
  have consistent := always _ ⟨loaded, rekeyed, ⟨first, rfl⟩, rfl⟩ _ List.mem_cons_self
  exact absurd consistent (by decide)

/-- A reload between the two reads mixes two configurations, whatever the key is. -/
def mixed : List Label :=
  [.start true true, .frame true, .readDeviceId,
    .reload ⟨ascii "http://b/push", ascii "rpi5", ascii "one"⟩, .readUrl, .perform true]

example : (exec step loaded mixed).map (fun state => decide (Consistent state)) = some false := by
  decide

end SensorNode.RequestConfig
