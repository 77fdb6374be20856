import SensorNode.ScanText

/-!
image-uploader's `load_config`. The struct is filled with defaults and then
line by line of the file, each line as one `fgets` call of a 512-byte buffer
returns it. A text field keeps the last byte it had: `strncpy` is given one byte
less than the field, and `main` does not clear the struct.
-/

namespace SensorNode.ConfigLoad

open LineStream DecimalText ScanText

/-- One less than `sizeof(line)`. -/
def lineRoom : Nat := 510 + 1

/-- `strncpy(dest, text, sizeof(dest) - 1)`. -/
def strncpy {size : Nat} (dest : Vector UInt8 size) (text : Bytes) : Vector UInt8 size :=
  Vector.ofFn fun place => if place.val + 1 < size then text.getD place.val nul else dest[place]

/-- `(int)strtol(text, NULL, 10)`, which is what `atoi` does. -/
def atoi (text : Bytes) : Int32 :=
  let signed := scanSign (text.dropWhile isSpace)
  let magnitude : Int := digitsValue (spanDigits signed.2).1
  Int32.ofInt (max (-2 ^ 63) (min (2 ^ 63 - 1) (if signed.1 then -magnitude else magnitude)))

structure UploaderConfig where
  serverUrl : Vector UInt8 256
  deviceId : Vector UInt8 64
  v4l2Dev : Vector UInt8 64
  captureDir : Vector UInt8 256
  apiKey : Vector UInt8 256
  width : Int32
  height : Int32
  interval : Int32
  maxRetries : Int32
  retryDelay : Int32
  deriving DecidableEq

def defaults (cfg : UploaderConfig) : UploaderConfig where
  serverUrl := strncpy cfg.serverUrl (ascii "http://10.10.23.10/images")
  deviceId := strncpy cfg.deviceId (ascii "rpi4")
  v4l2Dev := strncpy cfg.v4l2Dev (ascii "/dev/video0")
  captureDir := strncpy cfg.captureDir (ascii "/var/lib/image-uploader")
  apiKey := strncpy cfg.apiKey []
  width := 1280
  height := 720
  interval := 30
  maxRetries := 3
  retryDelay := 5

/-- What a line sets: nothing for comments and empty lines, otherwise what
`sscanf(line, "%63[^=]=%447s", key, val)` reads when it reads both. -/
def settingOf (line : Bytes) : Option (Bytes × Bytes) :=
  let text := chomp line
  if text.head? = some 35 ∨ text = [] then none
  else
    match scanUntil 63 61 text with
    | some (key, 61 :: rest) => (scanToken 447 rest).map fun read => (key, read.1)
    | _ => none

def assign (cfg : UploaderConfig) (key val : Bytes) : UploaderConfig :=
  if key = ascii "server_url" then { cfg with serverUrl := strncpy cfg.serverUrl val }
  else if key = ascii "device_id" then { cfg with deviceId := strncpy cfg.deviceId val }
  else if key = ascii "v4l2_dev" then { cfg with v4l2Dev := strncpy cfg.v4l2Dev val }
  else if key = ascii "capture_dir" then { cfg with captureDir := strncpy cfg.captureDir val }
  else if key = ascii "width" then { cfg with width := atoi val }
  else if key = ascii "height" then { cfg with height := atoi val }
  else if key = ascii "interval" then { cfg with interval := atoi val }
  else if key = ascii "max_retries" then { cfg with maxRetries := atoi val }
  else if key = ascii "retry_delay" then { cfg with retryDelay := atoi val }
  else if key = ascii "api_key" then { cfg with apiKey := strncpy cfg.apiKey val }
  else cfg

def readLine (cfg : UploaderConfig) (line : Bytes) : UploaderConfig :=
  match settingOf line with
  | some (key, val) => assign cfg key val
  | none => cfg

/-- `load_config` into a struct, from the file if there is one. -/
def loadConfig (cfg : UploaderConfig) : Option Bytes → UploaderConfig
  | none => defaults cfg
  | some file => (linesOf lineRoom file).foldl readLine (defaults cfg)

/-! ## The URL and the other fields -/

/-- The struct with its URL blanked: two structs that agree here differ in the
URL at most. -/
def others (cfg : UploaderConfig) : UploaderConfig :=
  { cfg with serverUrl := Vector.replicate 256 0 }

/-- The keys `load_config` knows besides `server_url`. -/
def otherKeys : List Bytes :=
  [ascii "device_id", ascii "v4l2_dev", ascii "capture_dir", ascii "width", ascii "height",
    ascii "interval", ascii "max_retries", ascii "retry_delay", ascii "api_key"]

def setsUrl (line : Bytes) : Bool :=
  (settingOf line).any fun setting => setting.1 == ascii "server_url"

def setsOther (line : Bytes) : Bool :=
  (settingOf line).any fun setting => decide (setting.1 ∈ otherKeys)

theorem assign_url (cfg : UploaderConfig) (val : Bytes) :
    assign cfg (ascii "server_url") val =
      { cfg with serverUrl := strncpy cfg.serverUrl val } := if_pos rfl

theorem assign_keeps_url (cfg : UploaderConfig) (key val : Bytes)
    (other : key ≠ ascii "server_url") : (assign cfg key val).serverUrl = cfg.serverUrl := by
  simp only [assign, if_neg other, apply_ite UploaderConfig.serverUrl, ite_self]

theorem assign_others (cfg : UploaderConfig) (key val : Bytes) :
    others (assign cfg key val) =
      if key = ascii "server_url" then others cfg else assign (others cfg) key val := by
  unfold assign
  by_cases url : key = ascii "server_url"
  · rw [if_pos url, if_pos url]
    simp only [others]
  · simp only [if_neg url]
    -- The same branch is taken on both sides.
    iterate 9
      rw [apply_ite others]
      refine ite_congr rfl (fun _ => rfl) fun _ => ?_
    rfl

theorem assign_unknown (cfg : UploaderConfig) (key val : Bytes)
    (url : key ≠ ascii "server_url") (unknown : key ∉ otherKeys) : assign cfg key val = cfg := by
  simp only [otherKeys, List.mem_cons, List.not_mem_nil, or_false, not_or] at unknown
  obtain ⟨a, b, c, d, e, f, g, h, i⟩ := unknown
  simp only [assign, if_neg url, if_neg a, if_neg b, if_neg c, if_neg d, if_neg e, if_neg f,
    if_neg g, if_neg h, if_neg i]

theorem readLine_congr (first second : UploaderConfig) (line : Bytes)
    (same : others first = others second) :
    others (readLine first line) = others (readLine second line) := by
  unfold readLine
  cases settingOf line with
  | none => exact same
  | some setting => simp only [assign_others, same]

theorem readLines_congr (lines : List Bytes) (first second : UploaderConfig)
    (same : others first = others second) :
    others (lines.foldl readLine first) = others (lines.foldl readLine second) := by
  induction lines generalizing first second with
  | nil => exact same
  | cons line rest ih => exact ih _ _ (readLine_congr first second line same)

theorem readLine_others (cfg : UploaderConfig) (line : Bytes) (quiet : setsOther line = false) :
    others (readLine cfg line) = others cfg := by
  unfold readLine
  cases read : settingOf line with
  | none => rfl
  | some setting =>
      obtain ⟨key, val⟩ := setting
      have unknown : key ∉ otherKeys := by simpa [setsOther, read] using quiet
      by_cases url : key = ascii "server_url"
      · simp only [assign_others, if_pos url]
      · simp only [assign_unknown cfg key val url unknown]

theorem readLines_others (lines : List Bytes) (cfg : UploaderConfig)
    (quiet : ∀ line ∈ lines, setsOther line = false) :
    others (lines.foldl readLine cfg) = others cfg := by
  induction lines generalizing cfg with
  | nil => rfl
  | cons line rest ih =>
      obtain ⟨head, tail⟩ := List.forall_mem_cons.mp quiet
      exact (ih _ tail).trans (readLine_others cfg line head)

theorem readLine_url (cfg : UploaderConfig) (line : Bytes) (quiet : setsUrl line = false) :
    (readLine cfg line).serverUrl = cfg.serverUrl := by
  unfold readLine
  cases read : settingOf line with
  | none => rfl
  | some setting =>
      have other : setting.1 ≠ ascii "server_url" := by simpa [setsUrl, read] using quiet
      exact assign_keeps_url cfg setting.1 setting.2 other

theorem readLines_url (lines : List Bytes) (cfg : UploaderConfig)
    (quiet : ∀ line ∈ lines, setsUrl line = false) :
    (lines.foldl readLine cfg).serverUrl = cfg.serverUrl := by
  induction lines generalizing cfg with
  | nil => rfl
  | cons line rest ih =>
      obtain ⟨head, tail⟩ := List.forall_mem_cons.mp quiet
      exact (ih _ tail).trans (readLine_url cfg line head)

/-- The byte of a field that `strncpy` is not given. -/
def lastByte (field : Vector UInt8 256) : UInt8 := field.get (Fin.last 255)

theorem strncpy_last (dest : Vector UInt8 256) (text : Bytes) :
    lastByte (strncpy dest text) = lastByte dest := by
  show (strncpy dest text)[255] = dest[255]
  simp [strncpy]

theorem readLines_last (lines : List Bytes) (cfg : UploaderConfig) :
    lastByte (lines.foldl readLine cfg).serverUrl = lastByte cfg.serverUrl := by
  induction lines generalizing cfg with
  | nil => rfl
  | cons line rest ih =>
      refine (ih _).trans ?_
      unfold readLine
      cases settingOf line with
      | none => rfl
      | some setting =>
          by_cases url : setting.1 = ascii "server_url"
          · simp only [url, assign_url]
            exact strncpy_last cfg.serverUrl setting.2
          · simp only [assign_keeps_url cfg setting.1 setting.2 url]

/-- A copied text is a C string of the field if it leaves room for a NUL, or if
a NUL already stands in the byte that is not copied. -/
theorem strncpy_cstring (dest : Vector UInt8 256) (text : Bytes) (noNul : nul ∉ text)
    (fits : text.length ≤ 255) (ended : text.length ≤ 254 ∨ lastByte dest = nul) :
    cstring (strncpy dest text).toList = text := by
  have length : (strncpy dest text).toList.length = 256 := Vector.length_toList
  have split := List.take_append_drop text.length (strncpy dest text).toList
  have front : (strncpy dest text).toList.take text.length = text := by
    apply List.ext_getElem
    · rw [List.length_take_of_le (by omega)]
    · intro place inTake inText
      have inside : place + 1 < 256 := by omega
      simp [strncpy, inside, inText]
  have inside : text.length < (strncpy dest text).toList.length := by omega
  have next : (strncpy dest text).toList[text.length] = nul := by
    by_cases room : text.length ≤ 254
    · have below : text.length + 1 < 256 := by omega
      simp [strncpy, below]
    · have full : text.length = 255 := by omega
      have last : dest[255] = nul := ended.resolve_left room
      simp [strncpy, full, last]
  rw [front, List.drop_eq_getElem_cons inside, next] at split
  rw [← split, cstring, List.takeWhile_append_of_pos (bne_of_notMem noNul)]
  simp

end SensorNode.ConfigLoad
