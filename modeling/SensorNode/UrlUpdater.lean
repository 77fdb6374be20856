import SensorNode.TextRows
import SensorNode.ConfigLoad

/-!
The `url-updater` script against the readers of the files it writes. The
collector's file is the URL alone. In the uploader's file the URL is spliced
into a `sed` replacement, or appended after whatever the file ends with, and
`load_config` reads at most 511 bytes of a line at a time.
-/

namespace SensorNode.UrlUpdater

open LineStream TextRows ScanText ConfigLoad

structure ServerUrl (url : Bytes) : Prop where
  present : url ≠ []
  short : url.length ≤ 255
  visible : ∀ byte ∈ url, 33 ≤ byte ∧ byte ≤ 126

instance (url : Bytes) : Decidable (ServerUrl url) :=
  have : Decidable (∀ byte ∈ url, 33 ≤ byte ∧ byte ≤ 126) := List.decidableBAll _ url
  decidable_of_iff (url ≠ [] ∧ url.length ≤ 255 ∧ ∀ byte ∈ url, 33 ≤ byte ∧ byte ≤ 126)
    ⟨fun ⟨a, b, c⟩ => ⟨a, b, c⟩, fun ⟨a, b, c⟩ => ⟨a, b, c⟩⟩

def echo (text : Bytes) : Bytes := text ++ [newline]

/-! ## data-collector -/

def updateDataCollector (config : Option Bytes) (url : Bytes) : Option Bytes :=
  if url = [] then config else some (echo url)

/-- data-collector's `load_config`, on the C string it overwrites. -/
def loadServerUrl (serverUrl : Bytes) : Option Bytes → Bytes
  | none => serverUrl
  | some config =>
      match fgets 255 config with
      | ([], _) => serverUrl
      | (line, _) => chomp line

/-! ## image-uploader -/

def urlKey : Bytes := ascii "server_url="

def configures (text : Bytes) : Bool := urlKey.isPrefixOf text

def hasUrl (file : Bytes) : Bool := (rowsOf file).any fun row => configures (rowText row)

/-- One item of a `sed` replacement. -/
inductive Part where
  | byte (byte : UInt8)
  | matched
  deriving DecidableEq

/-- The replacement of an `s` command up to its `|`, and the flags after it.
None where the text ends first or POSIX leaves the escape undefined. -/
def parseReplacement : Bytes → Option (List Part × Bytes)
  | [] => none
  | 124 :: flags => some ([], flags)
  | [92] => none
  | 92 :: byte :: rest =>
      if byte = 38 ∨ byte = 92 ∨ byte = 124 then
        (parseReplacement rest).map fun read => (.byte byte :: read.1, read.2)
      else none
  | 38 :: rest => (parseReplacement rest).map fun read => (.matched :: read.1, read.2)
  | byte :: rest => (parseReplacement rest).map fun read => (.byte byte :: read.1, read.2)

/-- What a matched line becomes: the pattern ends in `.*`, so all of it is matched. -/
def expand (parts : List Part) (line : Bytes) : Bytes :=
  parts.flatMap fun
    | .byte byte => [byte]
    | .matched => line

/-- `sed -i "s|^server_url=.*|server_url=$NEW_URL|g"`. The parameter stands for
what `sed` does with a script that is not one substitution POSIX defines. -/
def sedInPlace (other : Bytes → Bytes → Bytes) (url file : Bytes) : Bytes :=
  match parseReplacement (urlKey ++ url ++ ascii "|g") with
  | some (parts, [103]) =>
      (rowsOf file).flatMap (editRow fun text =>
        if configures text then expand parts text else text)
  | _ => other url file

/-- `update_image_uploader`: create the file, replace its URL lines, or append one. -/
def updateImageUploader (other : Bytes → Bytes → Bytes) (config : Option Bytes) (url : Bytes) :
    Option Bytes :=
  if url = [] then config
  else
    match config with
    | none => some (echo (ascii "# image-uploader configuration") ++ echo (urlKey ++ url))
    | some file =>
        if hasUrl file then some (sedInPlace other url file)
        else some (file ++ echo (urlKey ++ url))

/-! ## When the uploader reads back what was written -/

/-- No `&`, backslash or `|`, which a replacement does not take literally. -/
def Literal (url : Bytes) : Prop := ∀ byte ∈ url, byte ≠ 38 ∧ byte ≠ 92 ∧ byte ≠ 124

instance (url : Bytes) : Decidable (Literal url) := List.decidableBAll _ url

def continuation (row : Bytes) : List Bytes := (linesOf lineRoom row).tail

def rowsAfterUrl (file : Bytes) : List Bytes :=
  ((rowsOf file).reverse.takeWhile fun row => !configures (rowText row)).reverse

/-- What must hold of a file with a URL line: the URL is literal, no over-long
URL line goes on with another setting, and no over-long line after the last URL
line goes on with a URL. -/
structure Replaceable (file url : Bytes) : Prop where
  literal : Literal url
  ownPieces : ∀ row ∈ rowsOf file, configures (rowText row) = true →
    ∀ piece ∈ continuation row, setsOther piece = false
  laterPieces : ∀ row ∈ rowsAfterUrl file, ∀ piece ∈ continuation row, setsUrl piece = false

/-- The condition on the struct, the file and the URL. A file without a URL line
must end in a newline, or be empty, or end in whole buffers. -/
def UpdateSafe (cfg : UploaderConfig) (config : Option Bytes) (url : Bytes) : Prop :=
  (url.length ≤ 254 ∨ lastByte cfg.serverUrl = nul) ∧
    match config with
    | none => True
    | some file =>
        if hasUrl file then Replaceable file url
        else (unfinished file).length % lineRoom = 0

theorem rowsAfterUrl_rows (file : Bytes) :
    ∀ row ∈ rowsAfterUrl file, row ∈ rowsOf file ∧ ¬ configures (rowText row) = true := by
  intro row member
  have inside := List.mem_reverse.mp member
  refine ⟨List.mem_reverse.mp ((List.takeWhile_sublist _).subset inside), ?_⟩
  simpa using List.mem_takeWhile_imp inside

/-! ## The written line -/

theorem visible_solid (byte : UInt8) (visible : 33 ≤ byte) : isSpace byte = false := by
  have low : 33 ≤ byte.toNat := visible
  simp only [isSpace, Bool.or_eq_false_iff, Bool.and_eq_false_iff, beq_eq_false_iff_ne,
    decide_eq_false_iff_not]
  refine ⟨?_, Or.inr fun small => ?_⟩
  · rintro rfl
    exact absurd low (by decide)
  · have limit : byte.toNat ≤ 13 := small
    omega

section
variable (url : Bytes) (valid : ServerUrl url)
include valid

theorem url_plain : newline ∉ url ∧ nul ∉ url ∧ ∀ byte ∈ url, isSpace byte = false := by
  refine ⟨fun member => ?_, fun member => ?_, fun byte member => ?_⟩
  · exact absurd (valid.visible _ member).1 (by decide)
  · exact absurd (valid.visible _ member).1 (by decide)
  · exact visible_solid byte (valid.visible byte member).1

theorem urlLine_plain : newline ∉ urlKey ++ url ∧ nul ∉ urlKey ++ url := by
  obtain ⟨noNewline, noNul, _⟩ := url_plain url valid
  constructor <;> intro member <;> rcases List.mem_append.mp member with inKey | inUrl
  · exact absurd inKey (by decide)
  · exact noNewline inUrl
  · exact absurd inKey (by decide)
  · exact noNul inUrl

theorem settingOf_url (ending : Bytes) (ends : ending = [] ∨ ending = [newline]) :
    settingOf (urlKey ++ url ++ ending) = some (ascii "server_url", url) := by
  obtain ⟨noNewline, noNul⟩ := urlLine_plain url valid
  obtain ⟨_, _, solid⟩ := url_plain url valid
  have text : chomp (urlKey ++ url ++ ending) = urlKey ++ url := by
    rw [chomp_append _ _ noNewline noNul]
    rcases ends with rfl | rfl <;> simp [chomp]
  have key : scanUntil 63 61 (urlKey ++ url) = some (ascii "server_url", 61 :: url) :=
    scanUntil_written 63 61 (ascii "server_url") url (by decide) (by decide) (by decide)
  have word := scanToken_word 447 url valid.present (valid.short.trans (by decide)) solid
  unfold settingOf
  simp only [text]
  have starts : urlKey ++ url = 115 :: (urlKey.tail ++ url) := rfl
  rw [if_neg (by simp [starts])]
  simp only [key, word, Option.map_some]

theorem linesOf_url (ending : Bytes) (ends : ending = [] ∨ ending = [newline]) :
    linesOf lineRoom (urlKey ++ url ++ ending) = [urlKey ++ url ++ ending] := by
  obtain ⟨noNewline, _⟩ := urlLine_plain url valid
  have short := valid.short
  have size : (urlKey ++ url).length ≤ 510 := by
    rw [List.length_append]
    have key : urlKey.length = 11 := rfl
    omega
  rcases ends with rfl | rfl
  · rw [List.append_nil]
    exact linesOf_short 510 _ noNewline (by simp [urlKey, ascii]) size
  · exact linesOf_line 510 (urlKey ++ url) [] noNewline size

theorem readLine_written (cfg : UploaderConfig) (ending : Bytes)
    (ends : ending = [] ∨ ending = [newline]) :
    readLine cfg (urlKey ++ url ++ ending) =
      { cfg with serverUrl := strncpy cfg.serverUrl url } := by
  unfold readLine
  rw [settingOf_url url valid ending ends]
  exact assign_url cfg url

end

/-! ## Which pieces set the URL -/

theorem setsUrl_key (line : Bytes) (sets : setsUrl line = true) : urlKey <+: line := by
  have copied : chomp line <+: line := List.takeWhile_prefix _
  refine List.IsPrefix.trans ?_ copied
  unfold setsUrl at sets
  obtain ⟨val, read⟩ : ∃ val, settingOf line = some (ascii "server_url", val) := by
    cases read : settingOf line with
    | none => simp [read] at sets
    | some setting =>
        have key : setting.1 = ascii "server_url" := by simpa [read] using sets
        exact ⟨setting.2, by rw [← key]⟩
  unfold settingOf at read
  simp only at read
  split at read
  · cases read
  · split at read
    · next key rest scanned =>
      obtain ⟨word, _, pair⟩ := Option.map_eq_some_iff.mp read
      obtain ⟨rfl, _⟩ := Prod.mk.inj pair
      obtain ⟨split, _⟩ := scanUntil_item 63 61 _ _ _ scanned
      exact ⟨rest, by rw [split]; rfl⟩
    · cases read

theorem settingOf_key (rest : Bytes) (key val : Bytes)
    (read : settingOf (urlKey ++ rest) = some (key, val)) : key = ascii "server_url" := by
  have text : chomp (urlKey ++ rest) = ascii "server_url" ++ 61 :: chomp rest :=
    chomp_append urlKey rest (by decide) (by decide)
  have scanned := scanUntil_written 63 61 (ascii "server_url") (chomp rest) (by decide)
    (by decide) (by decide)
  unfold settingOf at read
  simp only [text, scanned] at read
  split at read
  · cases read
  · obtain ⟨word, _, pair⟩ := Option.map_eq_some_iff.mp read
    exact (Prod.mk.inj pair).1.symm

theorem key_quiet (rest : Bytes) : setsOther (urlKey ++ rest) = false := by
  unfold setsOther
  cases read : settingOf (urlKey ++ rest) with
  | none => rfl
  | some setting =>
      have key := settingOf_key rest setting.1 setting.2 read
      simp only [Option.any_some, key]
      decide

theorem configures_row (row : Bytes) : configures (rowText row) = true ↔ urlKey <+: row := by
  unfold configures
  rw [List.isPrefixOf_iff_prefix]
  constructor
  · exact fun starts => starts.trans (List.takeWhile_prefix _)
  · rintro ⟨rest, rfl⟩
    have plain : ∀ byte ∈ urlKey, (byte != newline) = true := List.all_eq_true.mp (by decide)
    rw [rowText, List.takeWhile_append_of_pos plain]
    exact List.prefix_append _ _

/-- The pieces of a row: the first starts as the row does. -/
theorem pieces_cons (row : Bytes) (present : row ≠ []) :
    ∃ first, linesOf lineRoom row = first :: continuation row ∧ first <+: row := by
  have step := linesOf_step 510 row present
  refine ⟨(fgets 511 row).1, ?_, ⟨(fgets 511 row).2, fgets_append 511 row⟩⟩
  show linesOf (510 + 1) row = _ :: (linesOf (510 + 1) row).tail
  rw [step, List.tail_cons]

theorem urlRow_quiet (row : Bytes) (starts : urlKey <+: row)
    (later : ∀ piece ∈ continuation row, setsOther piece = false) :
    ∀ piece ∈ linesOf lineRoom row, setsOther piece = false := by
  obtain ⟨rest, rfl⟩ := starts
  have front := fgets_front 511 urlKey rest (by decide) (by decide)
  have step := linesOf_step 510 (urlKey ++ rest) (by simp [urlKey, ascii])
  intro piece member
  rw [show linesOf lineRoom (urlKey ++ rest) = _ from step] at member
  rcases List.mem_cons.mp member with rfl | inTail
  · rw [front]
    exact key_quiet _
  · apply later piece
    rw [continuation, show linesOf lineRoom (urlKey ++ rest) = _ from step]
    exact inTail

theorem otherRow_quiet (row : Bytes) (other : ¬ urlKey <+: row)
    (later : ∀ piece ∈ continuation row, setsUrl piece = false) :
    ∀ piece ∈ linesOf lineRoom row, setsUrl piece = false := by
  by_cases empty : row = []
  · subst empty
    exact nofun
  · obtain ⟨first, split, starts⟩ := pieces_cons row empty
    intro piece member
    rw [split] at member
    rcases List.mem_cons.mp member with rfl | inTail
    · by_contra sets
      have key := setsUrl_key piece (by simpa using sets)
      exact other (key.trans starts)
    · exact later piece inTail

/-! ## Replacing -/

theorem parseReplacement_cons (byte : UInt8) (rest : Bytes)
    (literal : byte ≠ 38 ∧ byte ≠ 92 ∧ byte ≠ 124) :
    parseReplacement (byte :: rest) =
      (parseReplacement rest).map fun read => (.byte byte :: read.1, read.2) := by
  obtain ⟨notMatched, notEscape, notEnd⟩ := literal
  rw [parseReplacement]
  · exact notEnd
  · exact fun escape _ => notEscape escape
  · exact fun _ _ escape _ => notEscape escape
  · exact notMatched

theorem parseReplacement_append (text rest : Bytes) (literal : Literal text) :
    parseReplacement (text ++ rest) =
      (parseReplacement rest).map fun read => (text.map .byte ++ read.1, read.2) := by
  induction text with
  | nil => simp
  | cons byte text ih =>
      obtain ⟨head, tail⟩ := List.forall_mem_cons.mp literal
      rw [List.cons_append, parseReplacement_cons byte _ head, ih tail, Option.map_map]
      rfl

theorem parseReplacement_literal (text flags : Bytes) (literal : Literal text) :
    parseReplacement (text ++ 124 :: flags) = some (text.map .byte, flags) := by
  rw [parseReplacement_append text _ literal]
  simp [parseReplacement]

def written (url text : Bytes) : Bytes := if configures text then urlKey ++ url else text

theorem sedInPlace_literal (other : Bytes → Bytes → Bytes) (url file : Bytes)
    (literal : Literal url) :
    sedInPlace other url file = (rowsOf file).flatMap (editRow (written url)) := by
  have script : Literal (urlKey ++ url) := by
    intro byte member
    rcases List.mem_append.mp member with inKey | inUrl
    · exact (show Literal urlKey by decide) byte inKey
    · exact literal byte inUrl
  have parsed := parseReplacement_literal (urlKey ++ url) [103] script
  have copied : ∀ line, expand ((urlKey ++ url).map .byte) line = urlKey ++ url := by
    intro line
    simp [expand, List.flatMap_map]
  have flags : ascii "|g" = [124, 103] := rfl
  unfold sedInPlace
  rw [flags]
  simp only [parsed, copied]
  rfl

theorem editRow_url (url row : Bytes) (starts : configures (rowText row) = true) :
    editRow (written url) row = urlKey ++ url ++ rowEnd row := by
  rw [editRow, written, if_pos starts]

theorem editRow_other (url row : Bytes) (other : ¬ configures (rowText row) = true) :
    editRow (written url) row = row := by
  rw [editRow, written, if_neg other]
  exact rowText_rowEnd row

theorem last_decides (edit : Bytes → Bytes) (front back : List Bytes) (row : Bytes)
    (cfg : UploaderConfig) (kept : ∀ row ∈ back, edit row = row)
    (later : ∀ row ∈ back, ¬ configures (rowText row) = true)
    (quiet : ∀ row ∈ back, ∀ piece ∈ continuation row, setsUrl piece = false) :
    ∃ mid : UploaderConfig, lastByte mid.serverUrl = lastByte cfg.serverUrl ∧
      ((((front ++ row :: back).map edit).flatMap (linesOf lineRoom)).foldl readLine
        cfg).serverUrl = ((linesOf lineRoom (edit row)).foldl readLine mid).serverUrl := by
  have same : back.map edit = back := by
    conv_rhs => rw [← List.map_id back]
    exact List.map_congr_left kept
  have last : ∀ piece ∈ back.flatMap (linesOf lineRoom), setsUrl piece = false := by
    intro piece member
    obtain ⟨row, inside, inPieces⟩ := List.mem_flatMap.mp member
    exact otherRow_quiet row (fun key => later row inside ((configures_row row).mpr key))
      (quiet row inside) piece inPieces
  refine ⟨_, readLines_last ((front.map edit).flatMap (linesOf lineRoom)) cfg, ?_⟩
  simp only [List.map_append, List.map_cons, List.flatMap_append, List.flatMap_cons,
    List.foldl_append, same]
  exact readLines_url _ _ last

section
variable (url : Bytes) (valid : ServerUrl url)
include valid

theorem replaced_others (rows : List Bytes) (first second : UploaderConfig)
    (same : others first = others second)
    (ends : ∀ row ∈ rows, rowEnd row = [] ∨ rowEnd row = [newline])
    (quiet : ∀ row ∈ rows, configures (rowText row) = true →
      ∀ piece ∈ continuation row, setsOther piece = false) :
    others ((rows.flatMap (linesOf lineRoom)).foldl readLine first) =
      others (((rows.map (editRow (written url))).flatMap (linesOf lineRoom)).foldl
        readLine second) := by
  induction rows generalizing first second with
  | nil => exact same
  | cons row rest ih =>
      obtain ⟨rowEnds, restEnds⟩ := List.forall_mem_cons.mp ends
      obtain ⟨rowQuiet, restQuiet⟩ := List.forall_mem_cons.mp quiet
      simp only [List.map_cons, List.flatMap_cons, List.foldl_append]
      apply ih _ _ _ restEnds restQuiet
      by_cases starts : configures (rowText row) = true
      · have before := readLines_others (linesOf lineRoom row) first
          (urlRow_quiet row ((configures_row row).mp starts) (rowQuiet starts))
        rw [editRow_url url row starts, linesOf_url url valid _ rowEnds, List.foldl_cons,
          List.foldl_nil, readLine_written url valid second _ rowEnds, before, same]
        simp only [others]
      · rw [editRow_other url row starts]
        exact readLines_congr _ _ _ same

theorem replaced_url (front back : List Bytes) (row : Bytes) (cfg : UploaderConfig)
    (starts : configures (rowText row) = true)
    (ends : rowEnd row = [] ∨ rowEnd row = [newline])
    (later : ∀ row ∈ back, ¬ configures (rowText row) = true)
    (quiet : ∀ row ∈ back, ∀ piece ∈ continuation row, setsUrl piece = false) :
    ∃ dest : Vector UInt8 256, lastByte dest = lastByte cfg.serverUrl ∧
      ((((front ++ row :: back).map (editRow (written url))).flatMap (linesOf lineRoom)).foldl
        readLine cfg).serverUrl = strncpy dest url := by
  obtain ⟨mid, last, decided⟩ := last_decides (editRow (written url)) front back row cfg
    (fun row member => editRow_other url row (later row member)) later quiet
  refine ⟨mid.serverUrl, last, ?_⟩
  rw [decided, editRow_url url row starts, linesOf_url url valid _ ends, List.foldl_cons,
    List.foldl_nil, readLine_written url valid _ _ ends]

end

/-! ## The script and the readers -/

/-- What `load_config` is to yield after the update: the URL, and all else as
before it. -/
def Agrees (other : Bytes → Bytes → Bytes) (cfg : UploaderConfig) (config : Option Bytes)
    (url : Bytes) : Prop :=
  let after := loadConfig cfg (updateImageUploader other config url)
  cstring after.serverUrl.toList = url ∧ others after = others (loadConfig cfg config)

instance (other : Bytes → Bytes → Bytes) (cfg : UploaderConfig) (config : Option Bytes)
    (url : Bytes) : Decidable (Agrees other cfg config url) := by
  unfold Agrees
  infer_instance

/-- data-collector reads back any URL, whatever its file held. -/
theorem dataCollector_agrees (current : Bytes) (config : Option Bytes) (url : Bytes)
    (valid : ServerUrl url) : loadServerUrl current (updateDataCollector config url) = url := by
  obtain ⟨noNewline, noNul, _⟩ := url_plain url valid
  have front := fgets_front 255 url [newline] noNewline valid.short
  obtain ⟨more, read⟩ : ∃ more, (more = [] ∨ more = [newline]) ∧
      (fgets 255 (echo url)).1 = url ++ more := by
    refine ⟨_, ?_, congrArg Prod.fst front⟩
    cases 255 - url.length with
    | zero => exact Or.inl rfl
    | succ room => exact Or.inr rfl
  unfold updateDataCollector loadServerUrl
  rw [if_neg valid.present]
  split
  · next missing => cases missing
  · next config found =>
    cases found
    have line : chomp (fgets 255 (echo url)).1 = url := by
      rw [read.2, chomp_append url more noNewline noNul]
      rcases read.1 with rfl | rfl <;> simp [chomp]
    split
    · next rest empty =>
      rw [empty] at read
      exact absurd (List.append_eq_nil_iff.mp read.2.symm).1 valid.present
    · next text rest _ found =>
      rw [found] at line
      exact line

section
variable (other : Bytes → Bytes → Bytes) (cfg : UploaderConfig) (url : Bytes)
  (valid : ServerUrl url) (room : url.length ≤ 254 ∨ lastByte cfg.serverUrl = nul)
include valid room

theorem copied_url (dest : Vector UInt8 256)
    (same : lastByte dest = lastByte (defaults cfg).serverUrl) :
    cstring (strncpy dest url).toList = url := by
  obtain ⟨_, noNul, _⟩ := url_plain url valid
  apply strncpy_cstring dest url noNul valid.short
  rw [same]
  exact room.imp_right fun ended => (strncpy_last _ _).trans ended

theorem created_agrees : Agrees other cfg none url := by
  have comment : linesOf lineRoom (ascii "# image-uploader configuration" ++ [newline] ++
      (urlKey ++ url ++ [newline])) =
      [ascii "# image-uploader configuration" ++ [newline], urlKey ++ url ++ [newline]] := by
    have first := linesOf_line 510 (ascii "# image-uploader configuration")
      (urlKey ++ url ++ [newline]) (by decide) (by decide)
    rw [List.append_assoc, List.singleton_append]
    exact first.trans (congrArg _ (linesOf_url url valid [newline] (Or.inr rfl)))
  have skipped : settingOf (ascii "# image-uploader configuration" ++ [newline]) = none := by
    decide
  unfold Agrees updateImageUploader
  rw [if_neg valid.present]
  simp only [loadConfig, echo, comment, List.foldl_cons, List.foldl_nil,
    readLine_written url valid _ [newline] (Or.inr rfl)]
  have unchanged : readLine (defaults cfg) (ascii "# image-uploader configuration" ++ [newline]) =
      defaults cfg := by
    unfold readLine
    rw [skipped]
  rw [unchanged]
  exact ⟨copied_url cfg url valid room _ rfl, by simp only [others]⟩

theorem appended_agrees (file : Bytes) (absent : hasUrl file = false)
    (whole : (unfinished file).length % lineRoom = 0) : Agrees other cfg (some file) url := by
  have pieces : linesOf lineRoom (file ++ (urlKey ++ url ++ [newline])) =
      linesOf lineRoom file ++ [urlKey ++ url ++ [newline]] := by
    rw [← linesOf_url url valid [newline] (Or.inr rfl)]
    exact linesOf_appended 510 file _ whole
  unfold Agrees updateImageUploader
  rw [if_neg valid.present]
  simp only [absent, Bool.false_eq_true, if_false, loadConfig, echo, pieces, List.foldl_append,
    List.foldl_cons, List.foldl_nil, readLine_written url valid _ [newline] (Or.inr rfl)]
  refine ⟨copied_url cfg url valid room _ (readLines_last _ _), ?_⟩
  simp only [others]

theorem replaced_agrees (file : Bytes) (present : hasUrl file = true)
    (safe : Replaceable file url) : Agrees other cfg (some file) url := by
  have free : ∀ text, newline ∉ text → newline ∉ written url text := by
    intro text plain
    unfold written
    split
    · exact (urlLine_plain url valid).1
    · exact plain
  have ends := rowEnd_cases file
  have before : linesOf lineRoom file = (rowsOf file).flatMap (linesOf lineRoom) :=
    linesOf_rows 510 file
  have after : linesOf lineRoom ((rowsOf file).flatMap (editRow (written url))) =
      ((rowsOf file).map (editRow (written url))).flatMap (linesOf lineRoom) :=
    linesOf_edited 510 (written url) free file
  obtain ⟨front, row, split, starts⟩ := split_last (fun row => configures (rowText row)) _ present
  have unmarked : ∀ row ∈ rowsAfterUrl file, ¬ configures (rowText row) = true :=
    fun row member => (rowsAfterUrl_rows file row member).2
  have rowEnds := ends row (by rw [split]; simp)
  obtain ⟨dest, same, decided⟩ := replaced_url url valid front (rowsAfterUrl file) row
    (defaults cfg) starts rowEnds unmarked safe.laterPieces
  have fields := replaced_others url valid (rowsOf file) (defaults cfg) (defaults cfg) rfl ends
    safe.ownPieces
  unfold Agrees updateImageUploader
  rw [if_neg valid.present]
  simp only [present, if_true, sedInPlace_literal other url file safe.literal, loadConfig]
  rw [after, before]
  refine ⟨?_, fields.symm⟩
  have last : rowsOf file = front ++ row :: rowsAfterUrl file := split
  rw [last, decided]
  exact copied_url cfg url valid room dest same

end

theorem updateSafe_agrees (other : Bytes → Bytes → Bytes) (cfg : UploaderConfig)
    (config : Option Bytes) (url : Bytes) (valid : ServerUrl url)
    (safe : UpdateSafe cfg config url) : Agrees other cfg config url := by
  obtain ⟨room, safe⟩ := safe
  cases config with
  | none => exact created_agrees other cfg url valid room
  | some file =>
      simp only at safe
      by_cases present : hasUrl file = true
      · rw [if_pos present] at safe
        exact replaced_agrees other cfg url valid room file present safe
      · rw [if_neg present] at safe
        exact appended_agrees other cfg url valid room file (by simpa using present) safe

end SensorNode.UrlUpdater
