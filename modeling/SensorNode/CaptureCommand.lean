import SensorNode.ConfigReload

/-!
What image-uploader writes with `snprintf` from its configuration: the path of a picture, the
command for the shell, the key header and the form's timestamp. `load_config` reads a value up to
the first white space, so no value can split a word of the command, and every buffer is long enough.
-/

namespace SensorNode.CaptureCommand

open LineStream DecimalText ScanText ConfigLoad FieldLoader ConfigReload

/-- What `%s` prints of a text field that ends in its array. -/
def shown {size : Nat} (field : Vector UInt8 size) : Bytes := cstring field.toList

def snprintf (size : Nat) (text : Bytes) : Bytes := text.take (size - 1)

def pathText (cfg : UploaderConfig) (now : Int64) : Bytes :=
  shown cfg.captureDir ++ ascii "/" ++ shown cfg.deviceId ++ ascii "_" ++ decimalInt now.toInt ++
    ascii ".jpg"

/-- `out_path` of capture_image, `filepath` of main. -/
def filePath (cfg : UploaderConfig) (now : Int64) : Bytes := snprintf 512 (pathText cfg now)

def commandText (cfg : UploaderConfig) (path : Bytes) : Bytes :=
  ascii "v4l2-ctl --device=" ++ shown cfg.v4l2Dev ++
    ascii " --set-fmt-video=width=" ++ decimalInt cfg.width.toInt ++
    ascii ",height=" ++ decimalInt cfg.height.toInt ++
    ascii ",pixelformat=JPEG --stream-mmap --stream-to=" ++ path ++
    ascii " --stream-count=1 >> /var/log/image-uploader.log 2>&1"

def command (cfg : UploaderConfig) (path : Bytes) : Bytes := snprintf 1024 (commandText cfg path)

def apiKeyText (cfg : UploaderConfig) : Bytes := ascii "X-API-Key: " ++ shown cfg.apiKey

def apiKeyHeader (cfg : UploaderConfig) : Bytes := snprintf 320 (apiKeyText cfg)

def timestamp (now : Int64) : Bytes := snprintf 32 (decimalInt now.toInt)

/-! ## A capture and an upload -/

/-- What the calls of capture_image answer: `size` is what `stat` finds. -/
structure CaptureIo where
  lockOpens : Bool
  locks : Bool
  status : Int32
  size : Option Nat

structure Capture where
  path : Bytes
  /-- The command given to `system`. -/
  ran : Option Bytes
  ok : Bool
  deriving DecidableEq

def captureImage (cfg : UploaderConfig) (now : Int64) (io : CaptureIo) : Capture :=
  let path := filePath cfg now
  if io.lockOpens && io.locks then
    ⟨path, some (command cfg path), io.status == 0 && io.size.any (fun size => size != 0)⟩
  else ⟨path, none, false⟩

inductive Reply where
  | failed
  | status (code : Int)
  deriving DecidableEq

structure UploadIo where
  /-- Does `curl_easy_init` return a handle? -/
  handle : Bool
  /-- Does `curl_slist_append` return a list? -/
  listed : Bool
  reply : Reply

/-- The POST: its URL, its header and the parts of its form. -/
structure Request where
  url : Bytes
  header : Option Bytes
  image : Bytes
  deviceId : Bytes
  timestamp : Bytes
  deriving DecidableEq

structure Upload where
  request : Option Request
  ok : Bool
  deriving DecidableEq

def requestOf (cfg : UploaderConfig) (path : Bytes) (now : Int64) (listed : Bool) : Request where
  url := shown cfg.serverUrl
  header := if listed then some (apiKeyHeader cfg) else none
  image := path
  deviceId := shown cfg.deviceId
  timestamp := timestamp now

def uploadImage (cfg : UploaderConfig) (path : Bytes) (now : Int64) (io : UploadIo) : Upload :=
  if io.handle then
    ⟨some (requestOf cfg path now io.listed),
      match io.reply with
      | .failed => false
      | .status code => code == 200 || code == 201⟩
  else ⟨none, false⟩

/-! ## The values of a loaded configuration -/

theorem shown_strncpy {size : Nat} (dest : Vector UInt8 size) (text : Bytes) (positive : 0 < size)
    (ended : lastOf dest = nul) (plain : nul ∉ text) :
    shown (strncpy dest text) = text.take (size - 1) := by
  have padded : covered size text ++ [nul] =
      text.take (size - 1) ++ nul :: List.replicate (size - 1 - text.length) nul := by
    rw [← List.replicate_succ, List.replicate_succ', ← List.append_assoc]
    congr 1
    apply List.ext_getElem
    · simp [covered]
      omega
    · intro place inside _
      have room : place < size - 1 := by simpa [covered] using inside
      by_cases within : place < text.length
      · rw [List.getElem_append_left (by simp; omega)]
        simp [covered, within]
      · rw [List.getElem_append_right (by simp; omega)]
        simp [covered, within]
  have free : nul ∉ text.take (size - 1) := fun member => plain (List.mem_of_mem_take member)
  rw [shown, strncpy_toList dest text positive, ended, padded]
  have kept := bne_of_notMem free
  rw [cstring, List.takeWhile_append_of_pos kept]
  simp

def Solid (text : Bytes) : Prop := ∀ byte ∈ text, isSpace byte = false

instance (text : Bytes) : Decidable (Solid text) := List.decidableBAll _ text

theorem solid_append (left right : Bytes) (first : Solid left) (second : Solid right) :
    Solid (left ++ right) := fun byte member =>
  (List.mem_append.mp member).elim (first byte) (second byte)

/-- `%447s` stops at the first white space. -/
theorem settingOf_solid (line key val : Bytes) (set : settingOf line = some (key, val)) :
    Solid val := by
  unfold settingOf at set
  simp only at set
  split at set
  · cases set
  · split at set
    · next item rest scanned =>
        obtain ⟨read, token, same⟩ := Option.map_eq_some_iff.mp set
        obtain ⟨_, rfl⟩ := Prod.mk.inj same
        unfold scanToken at token
        simp only at token
        split at token
        · cases token
        · obtain rfl := Option.some.inj token
          intro byte member
          simpa using List.mem_takeWhile_imp member
    · cases set

theorem lastValue_solid (key value : Bytes) (lines : List Bytes) (solid : Solid value) :
    Solid (lastValue key value lines) := by
  induction lines generalizing value with
  | nil => exact solid
  | cons line rest ih =>
      apply ih
      show Solid ((settingFor key line).getD value)
      unfold settingFor
      cases set : settingOf line with
      | none => exact solid
      | some setting =>
          have free := settingOf_solid line setting.1 setting.2 set
          rw [Option.bind_some]
          split
          · exact free
          · exact solid

/-- Every text field's last byte is a NUL before the configuration is loaded. -/
def Ended (cfg : UploaderConfig) : Prop :=
  ∀ field, lastOf (uploaderLoader.text field cfg) = nul

theorem loaded_shown (prior : UploaderConfig) (file : Option Bytes) (ended : Ended prior)
    (field : UploaderFields.Text) :
    (shown (field.get (loadConfig prior file))).length < field.size ∧
      Solid (shown (field.get (loadConfig prior file))) := by
  have loaded : field.get (loadConfig prior file) =
      strncpy (field.get prior) (uploaderLoader.given field file) := by
    rw [← uploaderLoader_load]
    exact uploaderLoader.load_text field prior file
  have plain : nul ∉ uploaderLoader.given field file :=
    lastValue_plain _ _ _ (uploaderLoader.default_plain field)
  have solid : Solid (uploaderLoader.given field file) :=
    lastValue_solid _ _ _ (by cases field <;> decide)
  have positive : 0 < field.size := uploaderLoader.positive field
  have kept := shown_strncpy (field.get prior) _ positive (ended field) plain
  rw [loaded, kept]
  refine ⟨?_, fun byte member => solid byte (List.mem_of_mem_take member)⟩
  rw [List.length_take]
  omega

theorem loaded_ended (prior : UploaderConfig) (file : Option Bytes) (ended : Ended prior) :
    Ended (loadConfig prior file) := by
  intro field
  have positive := uploaderLoader.positive field
  rw [← uploaderLoader_load, uploaderLoader.load_text, lastOf, strncpy_toList _ _ positive]
  have last : (covered (uploaderLoader.size field) (uploaderLoader.given field file)).length =
      uploaderLoader.size field - 1 := by simp [covered]
  rw [List.getD_append_right _ _ _ _ last.le, last, Nat.sub_self]
  exact ended field

/-! ## The words of the command -/

theorem decimalInt_bytes (number : Int) :
    ∀ byte ∈ decimalInt number, byte = 45 ∨ isDigit byte = true := by
  intro byte member
  unfold decimalInt at member
  split at member
  · rcases List.mem_append.mp member with sign | digit
    · exact .inl (List.mem_singleton.mp sign)
    · exact .inr (decimal_digits _ byte digit)
  · exact .inr (decimal_digits _ byte member)

theorem decimalInt_injective (first second : Int) (same : decimalInt first = decimalInt second) :
    first = second := by
  have value (number : Nat) (other : Nat) (equal : decimal number = decimal other) :
      number = other := by rw [← decimal_value number, equal, decimal_value]
  have sign (number : Nat) (rest : Bytes) : decimal number ≠ 45 :: rest := by
    intro equal
    have digit := decimal_digits number 45 (by rw [equal]; exact List.mem_cons_self)
    exact absurd digit (by decide)
  unfold decimalInt at same
  have minus : ascii "-" = [45] := rfl
  rw [minus] at same
  by_cases low : first < 0
  · by_cases also : second < 0
    · rw [if_pos low, if_pos also] at same
      have := value _ _ (List.cons.inj same).2
      omega
    · rw [if_pos low, if_neg also] at same
      exact absurd same.symm (sign _ _)
  · by_cases also : second < 0
    · rw [if_neg low, if_pos also] at same
      exact absurd same (sign _ _)
    · rw [if_neg low, if_neg also] at same
      have := value _ _ same
      omega

/-- The words with a blank between one and the next. -/
def joined : List Bytes → Bytes
  | [] => []
  | [word] => word
  | word :: next :: rest => word ++ 32 :: joined (next :: rest)

theorem words_joined (words : List Bytes) (present : words ≠ [])
    (solid : ∀ word ∈ words, Solid word) : (joined words).splitOnP isSpace = words := by
  induction words with
  | nil => exact absurd rfl present
  | cons word rest ih =>
      have own := solid word List.mem_cons_self
      cases rest with
      | nil => exact List.splitOnP_eq_singleton own
      | cons next others =>
          rw [joined, List.splitOnP_append_cons_of_forall_mem own 32 (by decide),
            ih (List.cons_ne_nil _ _) fun other member =>
              solid other (List.mem_cons_of_mem _ member)]

def commandWords (cfg : UploaderConfig) (path : Bytes) : List Bytes :=
  [ascii "v4l2-ctl", ascii "--device=" ++ shown cfg.v4l2Dev,
    ascii "--set-fmt-video=width=" ++ decimalInt cfg.width.toInt ++
      ascii ",height=" ++ decimalInt cfg.height.toInt ++ ascii ",pixelformat=JPEG",
    ascii "--stream-mmap", ascii "--stream-to=" ++ path, ascii "--stream-count=1",
    ascii ">>", ascii "/var/log/image-uploader.log", ascii "2>&1"]

theorem commandText_joined (cfg : UploaderConfig) (path : Bytes) :
    commandText cfg path = joined (commandWords cfg path) := by
  simp only [commandText, commandWords, joined, List.append_assoc]
  rfl

/-- What the shell takes for more than itself inside a word: operators, quotes, expansions and
patterns. -/
def special : Bytes := ascii "|&;<>()$\\\"'*?[" ++ [96]

def Plain (text : Bytes) : Prop := ∀ byte ∈ text, byte ∉ special

instance (text : Bytes) : Decidable (Plain text) := List.decidableBAll _ text

theorem plain_append (left right : Bytes) : Plain (left ++ right) ↔ Plain left ∧ Plain right :=
  List.forall_mem_append

theorem decimalInt_plain (number : Int) : Plain (decimalInt number) := by
  have other : ∀ byte ∈ special, (byte != 45 && !isDigit byte) = true :=
    List.all_eq_true.mp (by decide)
  intro byte member inSpecial
  obtain ⟨notMinus, notDigit⟩ : byte ≠ 45 ∧ isDigit byte = false := by
    simpa using other byte inSpecial
  rcases decimalInt_bytes number byte member with rfl | digit
  · exact notMinus rfl
  · rw [digit] at notDigit
    cases notDigit

theorem decimalInt_solid (number : Int) : Solid (decimalInt number) := by
  intro byte member
  rcases decimalInt_bytes number byte member with rfl | digit
  · decide
  · simp only [isDigit, Bool.and_eq_true, decide_eq_true_eq] at digit
    simp only [isSpace, Bool.or_eq_false_iff, beq_eq_false_iff_ne, Bool.and_eq_false_iff,
      decide_eq_false_iff_not]
    constructor
    · rintro rfl
      exact absurd digit.1 (by decide)
    · exact .inr fun low => absurd (UInt8.le_trans digit.1 low) (by decide)

/-! ## Whole texts -/

theorem snprintf_whole (size : Nat) (text : Bytes) (short : text.length < size) :
    snprintf size text = text := List.take_of_length_le (by omega)

theorem int64_length (number : Int64) : (decimalInt number.toInt).length ≤ 20 :=
  decimalInt_length _ (Int64.le_toInt number) (Int64.toInt_lt number)

theorem int32_length (number : Int32) : (decimalInt number.toInt).length ≤ 20 := by
  have low : -2 ^ 31 ≤ number.toInt := Int32.le_toInt number
  have high : number.toInt < 2 ^ 31 := Int32.toInt_lt number
  exact decimalInt_length _ (by omega) (by omega)

/-- What `snprintf` must not cut: the texts fit their buffers. -/
structure Whole (cfg : UploaderConfig) (now : Int64) : Prop where
  path : filePath cfg now = pathText cfg now
  command : command cfg (filePath cfg now) = commandText cfg (filePath cfg now)
  header : apiKeyHeader cfg = apiKeyText cfg
  stamp : timestamp now = decimalInt now.toInt

section
variable (prior : UploaderConfig) (file : Option Bytes) (ended : Ended prior) (now : Int64)
include ended

theorem loaded_whole : Whole (loadConfig prior file) now := by
  have directory : (shown (loadConfig prior file).captureDir).length < 256 :=
    (loaded_shown prior file ended .captureDir).1
  have device : (shown (loadConfig prior file).deviceId).length < 64 :=
    (loaded_shown prior file ended .deviceId).1
  have camera : (shown (loadConfig prior file).v4l2Dev).length < 64 :=
    (loaded_shown prior file ended .v4l2Dev).1
  have key : (shown (loadConfig prior file).apiKey).length < 256 :=
    (loaded_shown prior file ended .apiKey).1
  generalize loadConfig prior file = cfg at *
  have stamp := int64_length now
  have path : (pathText cfg now).length ≤ 344 := by
    have fixed : (ascii "/").length + (ascii "_").length + (ascii ".jpg").length = 6 := rfl
    simp only [pathText, List.length_append]
    omega
  have whole : filePath cfg now = pathText cfg now := snprintf_whole 512 _ (by omega)
  refine ⟨whole, ?_, ?_, snprintf_whole 32 _ (by omega)⟩
  · have wide := int32_length cfg.width
    have high := int32_length cfg.height
    have fixed : (ascii "v4l2-ctl --device=").length + (ascii " --set-fmt-video=width=").length +
        (ascii ",height=").length + (ascii ",pixelformat=JPEG --stream-mmap --stream-to=").length +
        (ascii " --stream-count=1 >> /var/log/image-uploader.log 2>&1").length = 146 := rfl
    apply snprintf_whole
    rw [whole]
    simp only [commandText, List.length_append]
    omega
  · have fixed : (ascii "X-API-Key: ").length = 11 := rfl
    apply snprintf_whole
    simp only [apiKeyText, List.length_append]
    omega

theorem filePath_same (other : Int64) :
    filePath (loadConfig prior file) other = filePath (loadConfig prior file) now ↔
      other = now := by
  constructor
  · intro same
    rw [(loaded_whole prior file ended other).path, (loaded_whole prior file ended now).path,
      pathText, pathText] at same
    have numbers := List.append_cancel_left (List.append_cancel_right same)
    exact Int64.toInt_inj.mp (decimalInt_injective _ _ numbers)
  · rintro rfl
    rfl

theorem pathText_solid : Solid (pathText (loadConfig prior file) now) := by
  have directory := (loaded_shown prior file ended .captureDir).2
  have device := (loaded_shown prior file ended .deviceId).2
  have fixed : Solid (ascii "/") ∧ Solid (ascii "_") ∧ Solid (ascii ".jpg") := by decide
  have number := decimalInt_solid now.toInt
  exact solid_append _ _ (solid_append _ _ (solid_append _ _ (solid_append _ _
    (solid_append _ _ directory fixed.1) device) fixed.2.1) number) fixed.2.2

/-- Whatever the file says, `system` is given nine words: the camera's, the format's and the path
that is then examined and uploaded are each one of them, and only their special characters, if
there are any, mean more to the shell. -/
theorem command_words : Whole (loadConfig prior file) now ∧
    (∀ other, filePath (loadConfig prior file) other = filePath (loadConfig prior file) now ↔
      other = now) ∧
    (command (loadConfig prior file) (filePath (loadConfig prior file) now)).splitOnP isSpace =
      commandWords (loadConfig prior file) (filePath (loadConfig prior file) now) ∧
    ((∀ word ∈ (commandWords (loadConfig prior file)
        (filePath (loadConfig prior file) now)).take 6, Plain word) ↔
      Plain (shown (loadConfig prior file).v4l2Dev) ∧
        Plain (shown (loadConfig prior file).captureDir) ∧
        Plain (shown (loadConfig prior file).deviceId)) := by
  have whole := loaded_whole prior file ended now
  refine ⟨whole, filePath_same prior file ended now, ?_, ?_⟩
  · rw [whole.command, commandText_joined]
    apply words_joined _ (List.cons_ne_nil _ _)
    have camera : Solid (shown (loadConfig prior file).v4l2Dev) :=
      (loaded_shown prior file ended .v4l2Dev).2
    have path := pathText_solid prior file ended now
    rw [← whole.path] at path
    have wide := decimalInt_solid (loadConfig prior file).width.toInt
    have high := decimalInt_solid (loadConfig prior file).height.toInt
    intro word member
    simp only [List.mem_cons, List.not_mem_nil, or_false] at member
    rcases member with rfl | rfl | rfl | rfl | rfl | rfl | rfl | rfl | rfl
    · decide
    · exact solid_append _ _ (by decide) camera
    · exact solid_append _ _ (solid_append _ _ (solid_append _ _ (solid_append _ _ (by decide) wide)
        (by decide)) high) (by decide)
    · decide
    · exact solid_append _ _ (by decide) path
    all_goals decide
  · have fixed : Plain (ascii "v4l2-ctl") ∧ Plain (ascii "--device=") ∧
        Plain (ascii "--set-fmt-video=width=") ∧ Plain (ascii ",height=") ∧
        Plain (ascii ",pixelformat=JPEG") ∧ Plain (ascii "--stream-mmap") ∧
        Plain (ascii "--stream-to=") ∧ Plain (ascii "--stream-count=1") ∧ Plain (ascii "/") ∧
        Plain (ascii "_") ∧ Plain (ascii ".jpg") := by decide
    rw [whole.path]
    simp only [commandWords, pathText, List.take_succ_cons, List.take_zero, List.forall_mem_cons,
      List.not_mem_nil, false_imp_iff, implies_true, plain_append, decimalInt_plain, fixed,
      true_and, and_true]

end

/-- The struct as a cleared stack holds it. -/
def cleared : UploaderConfig where
  serverUrl := Vector.replicate 256 nul
  deviceId := Vector.replicate 64 nul
  v4l2Dev := Vector.replicate 64 nul
  captureDir := Vector.replicate 256 nul
  apiKey := Vector.replicate 256 nul
  width := 0
  height := 0
  interval := 0
  maxRetries := 0
  retryDelay := 0

theorem cleared_ended : Ended cleared := by
  intro field
  cases field <;> rfl

/-- A device name that ends the command for the shell. -/
def hostile : Bytes := ascii "device_id=rpi4;reboot\n"

theorem command_words_hostile :
    (command (loadConfig cleared (some hostile)) (filePath (loadConfig cleared (some hostile))
        1700000000)).splitOnP isSpace =
      commandWords (loadConfig cleared (some hostile)) (filePath (loadConfig cleared (some hostile))
        1700000000) ∧
    ¬ ∀ word ∈ (commandWords (loadConfig cleared (some hostile))
        (filePath (loadConfig cleared (some hostile)) 1700000000)).take 6, Plain word := by
  obtain ⟨-, -, words, plain⟩ := command_words cleared (some hostile) cleared_ended 1700000000
  refine ⟨words, fun all => ?_⟩
  have device : ¬ Plain (shown (loadConfig cleared (some hostile)).deviceId) := by decide +kernel
  exact device (plain.mp all).2.2

end SensorNode.CaptureCommand
