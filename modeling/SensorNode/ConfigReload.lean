import SensorNode.FieldLoader

/-!
The two `load_config` functions that share a struct between loads, camera-stream's
and image-uploader's, as loaders of their fields: what they depend on of the struct's
prior contents, which `main` does not clear and a reload does not either.
-/

namespace SensorNode.ConfigReload

open LineStream ConfigLoad FieldLoader

/-! ## camera-stream -/

structure StreamConfig where
  serverStreamUrl : Vector UInt8 256
  serverSnapshotUrl : Vector UInt8 256
  deviceId : Vector UInt8 64
  v4l2Dev : Vector UInt8 64
  apiKey : Vector UInt8 256
  width : Int32
  height : Int32
  fps : Int32
  snapshotInterval : Int32
  jpegQuality : Int32
  deriving DecidableEq

namespace StreamConfig

def defaults (cfg : StreamConfig) : StreamConfig where
  serverStreamUrl := strncpy cfg.serverStreamUrl (ascii "http://100.125.136.31/stream/push")
  serverSnapshotUrl := strncpy cfg.serverSnapshotUrl (ascii "http://100.125.136.31/images")
  deviceId := strncpy cfg.deviceId (ascii "rpi4")
  v4l2Dev := strncpy cfg.v4l2Dev (ascii "/dev/video0")
  apiKey := strncpy cfg.apiKey []
  width := 640
  height := 480
  fps := 30
  snapshotInterval := 30
  jpegQuality := 75

def assign (cfg : StreamConfig) (key val : Bytes) : StreamConfig :=
  if key = ascii "server_stream_url" then
    { cfg with serverStreamUrl := strncpy cfg.serverStreamUrl val }
  else if key = ascii "server_snapshot_url" then
    { cfg with serverSnapshotUrl := strncpy cfg.serverSnapshotUrl val }
  else if key = ascii "device_id" then { cfg with deviceId := strncpy cfg.deviceId val }
  else if key = ascii "v4l2_dev" then { cfg with v4l2Dev := strncpy cfg.v4l2Dev val }
  else if key = ascii "api_key" then { cfg with apiKey := strncpy cfg.apiKey val }
  else if key = ascii "width" then { cfg with width := atoi val }
  else if key = ascii "height" then { cfg with height := atoi val }
  else if key = ascii "fps" then { cfg with fps := atoi val }
  else if key = ascii "snapshot_interval" then { cfg with snapshotInterval := atoi val }
  else if key = ascii "jpeg_quality" then { cfg with jpegQuality := atoi val }
  else cfg

def readLine (cfg : StreamConfig) (line : Bytes) : StreamConfig :=
  match settingOf line with
  | some (key, val) => assign cfg key val
  | none => cfg

/-- camera-stream's `load_config`. -/
def loadConfig (cfg : StreamConfig) : Option Bytes → StreamConfig
  | none => defaults cfg
  | some file => (linesOf lineRoom file).foldl readLine (defaults cfg)

inductive Text where
  | serverStreamUrl | serverSnapshotUrl | deviceId | v4l2Dev | apiKey

inductive Number where
  | width | height | fps | snapshotInterval | jpegQuality

def Text.size : Text → Nat
  | .serverStreamUrl | .serverSnapshotUrl | .apiKey => 256
  | .deviceId | .v4l2Dev => 64

def Text.key : Text → Bytes
  | .serverStreamUrl => ascii "server_stream_url"
  | .serverSnapshotUrl => ascii "server_snapshot_url"
  | .deviceId => ascii "device_id"
  | .v4l2Dev => ascii "v4l2_dev"
  | .apiKey => ascii "api_key"

def Text.default : Text → Bytes
  | .serverStreamUrl => ascii "http://100.125.136.31/stream/push"
  | .serverSnapshotUrl => ascii "http://100.125.136.31/images"
  | .deviceId => ascii "rpi4"
  | .v4l2Dev => ascii "/dev/video0"
  | .apiKey => []

def Text.get : (field : Text) → StreamConfig → Vector UInt8 field.size
  | .serverStreamUrl, cfg => cfg.serverStreamUrl
  | .serverSnapshotUrl, cfg => cfg.serverSnapshotUrl
  | .deviceId, cfg => cfg.deviceId
  | .v4l2Dev, cfg => cfg.v4l2Dev
  | .apiKey, cfg => cfg.apiKey

def Number.key : Number → Bytes
  | .width => ascii "width"
  | .height => ascii "height"
  | .fps => ascii "fps"
  | .snapshotInterval => ascii "snapshot_interval"
  | .jpegQuality => ascii "jpeg_quality"

def Number.default : Number → Int32
  | .width => 640
  | .height => 480
  | .fps => 30
  | .snapshotInterval => 30
  | .jpegQuality => 75

def Number.get : Number → StreamConfig → Int32
  | .width, cfg => cfg.width
  | .height, cfg => cfg.height
  | .fps, cfg => cfg.fps
  | .snapshotInterval, cfg => cfg.snapshotInterval
  | .jpegQuality, cfg => cfg.jpegQuality

theorem assign_text (field : Text) (cfg : StreamConfig) (key val : Bytes) :
    field.get (assign cfg key val) =
      if field.key = key then strncpy (field.get cfg) val else field.get cfg := by
  by_cases own : field.key = key
  · subst own
    rw [if_pos rfl]
    cases field <;> rfl
  · rw [if_neg own]
    have other := Ne.symm own
    -- Every branch but the field's own leaves it as it is.
    cases field <;> simp only [Text.key] at other <;>
      simp only [Text.get, assign, if_neg other, apply_ite serverStreamUrl,
        apply_ite serverSnapshotUrl, apply_ite deviceId, apply_ite v4l2Dev, apply_ite apiKey,
        ite_self]
    all_goals rfl

theorem assign_number (field : Number) (cfg : StreamConfig) (key val : Bytes) :
    field.get (assign cfg key val) = if field.key = key then atoi val else field.get cfg := by
  by_cases own : field.key = key
  · subst own
    rw [if_pos rfl]
    cases field <;> rfl
  · rw [if_neg own]
    have other := Ne.symm own
    cases field <;> simp only [Number.key] at other <;>
      simp only [Number.get, assign, if_neg other, apply_ite width, apply_ite height, apply_ite fps,
        apply_ite snapshotInterval, apply_ite jpegQuality, ite_self]

end StreamConfig

/-! ## image-uploader -/

namespace UploaderFields

open UploaderConfig

inductive Text where
  | serverUrl | deviceId | v4l2Dev | captureDir | apiKey

inductive Number where
  | width | height | interval | maxRetries | retryDelay

def Text.size : Text → Nat
  | .serverUrl | .captureDir | .apiKey => 256
  | .deviceId | .v4l2Dev => 64

def Text.key : Text → Bytes
  | .serverUrl => ascii "server_url"
  | .deviceId => ascii "device_id"
  | .v4l2Dev => ascii "v4l2_dev"
  | .captureDir => ascii "capture_dir"
  | .apiKey => ascii "api_key"

def Text.default : Text → Bytes
  | .serverUrl => ascii "http://10.10.23.10/images"
  | .deviceId => ascii "rpi4"
  | .v4l2Dev => ascii "/dev/video0"
  | .captureDir => ascii "/var/lib/image-uploader"
  | .apiKey => []

def Text.get : (field : Text) → UploaderConfig → Vector UInt8 field.size
  | .serverUrl, cfg => cfg.serverUrl
  | .deviceId, cfg => cfg.deviceId
  | .v4l2Dev, cfg => cfg.v4l2Dev
  | .captureDir, cfg => cfg.captureDir
  | .apiKey, cfg => cfg.apiKey

def Number.key : Number → Bytes
  | .width => ascii "width"
  | .height => ascii "height"
  | .interval => ascii "interval"
  | .maxRetries => ascii "max_retries"
  | .retryDelay => ascii "retry_delay"

def Number.default : Number → Int32
  | .width => 1280
  | .height => 720
  | .interval => 30
  | .maxRetries => 3
  | .retryDelay => 5

def Number.get : Number → UploaderConfig → Int32
  | .width, cfg => cfg.width
  | .height, cfg => cfg.height
  | .interval, cfg => cfg.interval
  | .maxRetries, cfg => cfg.maxRetries
  | .retryDelay, cfg => cfg.retryDelay

theorem assign_text (field : Text) (cfg : UploaderConfig) (key val : Bytes) :
    field.get (assign cfg key val) =
      if field.key = key then strncpy (field.get cfg) val else field.get cfg := by
  by_cases own : field.key = key
  · subst own
    rw [if_pos rfl]
    cases field <;> rfl
  · rw [if_neg own]
    have other := Ne.symm own
    cases field <;> simp only [Text.key] at other <;>
      simp only [Text.get, assign, if_neg other, apply_ite serverUrl, apply_ite deviceId,
        apply_ite v4l2Dev, apply_ite captureDir, apply_ite apiKey, ite_self]
    all_goals rfl

theorem assign_number (field : Number) (cfg : UploaderConfig) (key val : Bytes) :
    field.get (assign cfg key val) = if field.key = key then atoi val else field.get cfg := by
  by_cases own : field.key = key
  · subst own
    rw [if_pos rfl]
    cases field <;> rfl
  · rw [if_neg own]
    have other := Ne.symm own
    cases field <;> simp only [Number.key] at other <;>
      simp only [Number.get, assign, if_neg other, apply_ite width, apply_ite height,
        apply_ite interval, apply_ite maxRetries, apply_ite retryDelay, ite_self]

end UploaderFields

/-! ## Both as loaders -/

theorem elim_setting {Config Value : Type} (get : Config → Value) (key line : Bytes)
    (assign : Config → Bytes → Bytes → Config) (write : Bytes → Value) (cfg : Config)
    (own : ∀ key' val, get (assign cfg key' val) = if key = key' then write val else get cfg) :
    get (match settingOf line with
      | some (key', val) => assign cfg key' val
      | none => cfg) = (settingFor key line).elim (get cfg) write := by
  unfold settingFor
  cases settingOf line with
  | none => rfl
  | some setting =>
      obtain ⟨key', val⟩ := setting
      show get (assign cfg key' val) = _
      rw [own, Option.bind_some]
      by_cases same : key = key'
      · rw [if_pos same, if_pos same.symm]
        rfl
      · rw [if_neg same, if_neg (Ne.symm same)]
        rfl

def streamLoader : Loader StreamConfig where
  Text := StreamConfig.Text
  Number := StreamConfig.Number
  size := StreamConfig.Text.size
  textKey := StreamConfig.Text.key
  textDefault := StreamConfig.Text.default
  text := StreamConfig.Text.get
  numberKey := StreamConfig.Number.key
  numberDefault := StreamConfig.Number.default
  number := StreamConfig.Number.get
  defaults := StreamConfig.defaults
  readLine := StreamConfig.readLine
  positive := by intro field; cases field <;> decide
  default_plain := by intro field; cases field <;> decide
  defaults_text := by intro field cfg; cases field <;> rfl
  defaults_number := by intro field cfg; cases field <;> rfl
  readLine_text := fun field cfg line =>
    elim_setting field.get field.key line StreamConfig.assign (strncpy (field.get cfg)) cfg
      (StreamConfig.assign_text field cfg)
  readLine_number := fun field cfg line =>
    elim_setting field.get field.key line StreamConfig.assign atoi cfg
      (StreamConfig.assign_number field cfg)

def uploaderLoader : Loader UploaderConfig where
  Text := UploaderFields.Text
  Number := UploaderFields.Number
  size := UploaderFields.Text.size
  textKey := UploaderFields.Text.key
  textDefault := UploaderFields.Text.default
  text := UploaderFields.Text.get
  numberKey := UploaderFields.Number.key
  numberDefault := UploaderFields.Number.default
  number := UploaderFields.Number.get
  defaults := defaults
  readLine := readLine
  positive := by intro field; cases field <;> decide
  default_plain := by intro field; cases field <;> decide
  defaults_text := by intro field cfg; cases field <;> rfl
  defaults_number := by intro field cfg; cases field <;> rfl
  readLine_text := fun field cfg line =>
    elim_setting field.get field.key line assign (strncpy (field.get cfg)) cfg
      (UploaderFields.assign_text field cfg)
  readLine_number := fun field cfg line =>
    elim_setting field.get field.key line assign atoi cfg (UploaderFields.assign_number field cfg)

theorem streamLoader_load (cfg : StreamConfig) (file : Option Bytes) :
    streamLoader.load cfg file = StreamConfig.loadConfig cfg file := by
  cases file <;> rfl

theorem uploaderLoader_load (cfg : UploaderConfig) (file : Option Bytes) :
    uploaderLoader.load cfg file = loadConfig cfg file := by
  cases file <;> rfl

/-- Two loads of one file agree, and hold strings, exactly when every text field was
given a text that leaves room for its NUL or ended in a NUL before. -/
theorem loadConfig_same_iff (file : Option Bytes) :
    (∀ first second : StreamConfig,
      streamLoader.Same (StreamConfig.loadConfig first file) (StreamConfig.loadConfig second file) ↔
        streamLoader.Roomy first second file) ∧
    ∀ first second : UploaderConfig,
      uploaderLoader.Same (loadConfig first file) (loadConfig second file) ↔
        uploaderLoader.Roomy first second file := by
  constructor
  · intro first second
    rw [← streamLoader_load, ← streamLoader_load]
    exact streamLoader.load_same_iff first second file
  · intro first second
    rw [← uploaderLoader_load, ← uploaderLoader_load]
    exact uploaderLoader.load_same_iff first second file

/-- A struct in memory that holds one byte everywhere. -/
def filled (byte : UInt8) : StreamConfig where
  serverStreamUrl := Vector.replicate 256 byte
  serverSnapshotUrl := Vector.replicate 256 byte
  deviceId := Vector.replicate 64 byte
  v4l2Dev := Vector.replicate 64 byte
  apiKey := Vector.replicate 256 byte
  width := 0
  height := 0
  fps := 0
  snapshotInterval := 0
  jpegQuality := 0

/-- A device name of 63 bytes. -/
def longName : Bytes := ascii "device_id=" ++ List.replicate 63 97 ++ [newline]

/-- The name fills all that is copied, and the byte after it is what the memory held. -/
theorem loadConfig_unterminated : ¬ ∀ (file : Option Bytes) (first second : StreamConfig),
    streamLoader.Same (StreamConfig.loadConfig first file)
      (StreamConfig.loadConfig second file) := by
  intro always
  have same := always (some longName) (filled 0) (filled 255)
  rw [← streamLoader_load, ← streamLoader_load] at same
  have roomy := (streamLoader.load_same_iff _ _ _).mp same StreamConfig.Text.deviceId
  have whole : (streamLoader.given StreamConfig.Text.deviceId (some longName)).length = 63 := by
    decide +kernel
  rw [whole] at roomy
  have last : lastOf (filled 255).deviceId ≠ nul := by decide
  exact roomy.elim (by decide) fun ended => last ended.2

end SensorNode.ConfigReload
