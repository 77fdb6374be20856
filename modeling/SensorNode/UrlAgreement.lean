import SensorNode.UrlUpdater

/-!
When `url-updater` and the daemons agree, and what happens where the condition
of `UrlUpdater` fails: on files whose lines fit the read buffer, with a script
POSIX defines and a URL that is not the one already read, they then disagree.
Outside that they can agree by accident, as when the text appended to an
unterminated comment happens to be the URL `load_config` falls back to.
-/

namespace SensorNode.UrlAgreement

open LineStream TextRows ScanText ConfigLoad UrlUpdater

/-! ## The field -/

theorem cstring_full (field : Vector UInt8 256) (text : Bytes)
    (read : cstring field.toList = text) (full : text.length = 255) : lastByte field = nul := by
  have length : field.toList.length = 256 := Vector.length_toList
  have joined := List.takeWhile_append_dropWhile (p := fun byte => byte != nul) (l := field.toList)
  have head := List.head?_dropWhile_not (fun byte => byte != nul) field.toList
  have front : field.toList.takeWhile (fun byte => byte != nul) = text := read
  rw [front] at joined
  cases rest : field.toList.dropWhile (fun byte => byte != nul) with
  | nil =>
      rw [rest, List.append_nil] at joined
      rw [← joined] at length
      omega
  | cons byte tail =>
      rw [rest] at joined head
      have inside : 255 < field.toList.length := by omega
      have last : field.toList[255] = byte := by
        simp only [← joined, ← full]
        simp
      have ended : byte = nul := by simpa using head
      rw [← ended, ← last, Vector.getElem_toList]
      rfl

theorem loadConfig_last (cfg : UploaderConfig) (config : Option Bytes) :
    lastByte (loadConfig cfg config).serverUrl = lastByte cfg.serverUrl := by
  cases config with
  | none => exact strncpy_last _ _
  | some file => exact (readLines_last _ _).trans (strncpy_last _ _)

theorem agrees_room (other : Bytes → Bytes → Bytes) (cfg : UploaderConfig)
    (config : Option Bytes) (url : Bytes) (valid : ServerUrl url)
    (agrees : Agrees other cfg config url) : url.length ≤ 254 ∨ lastByte cfg.serverUrl = nul := by
  by_cases short : url.length ≤ 254
  · exact Or.inl short
  · have full : url.length = 255 := by
      have limit := valid.short
      omega
    exact Or.inr ((loadConfig_last cfg _).symm.trans (cstring_full _ url agrees.1 full))

theorem cstring_strncpy (dest : Vector UInt8 256) (text url : Bytes)
    (read : cstring (strncpy dest text).toList = url) (short : url.length ≤ 255) :
    url <+: text := by
  have noNul : nul ∉ url := read ▸ nul_notMem_cstring _
  have copied : url <+: (strncpy dest text).toList := read ▸ List.takeWhile_prefix _
  have item : ∀ place (inside : place < url.length), url[place] = text.getD place nul := by
    intro place inside
    have same := List.IsPrefix.getElem copied inside
    have below : place + 1 < 256 := by omega
    rw [same]
    simp [strncpy, below]
  have reach : url.length ≤ text.length := by
    by_contra beyond
    have inside : text.length < url.length := by omega
    have ended := item text.length inside
    rw [List.getD_eq_getElem?_getD, List.getElem?_eq_none le_rfl, Option.getD_none] at ended
    exact noNul (ended ▸ List.getElem_mem inside)
  apply List.prefix_iff_getElem.mpr
  refine ⟨reach, fun place inside => ?_⟩
  have below : place < text.length := by omega
  rw [item place inside, List.getD_eq_getElem?_getD, List.getElem?_eq_getElem below,
    Option.getD_some]

/-! ## The replacement -/

theorem expand_byte (byte : UInt8) (parts : List Part) (line : Bytes) :
    expand (.byte byte :: parts) line = byte :: expand parts line := rfl

theorem expand_matched (parts : List Part) (line : Bytes) :
    expand (.matched :: parts) line = line ++ expand parts line := rfl

theorem parseReplacement_head (byte : UInt8) (rest : Bytes) (parts : List Part)
    (parsed : parseReplacement (byte :: rest ++ [124, 103]) = some (parts, [103])) :
    ((byte ≠ 38 ∧ byte ≠ 92 ∧ byte ≠ 124) ∧ ∃ others, parts = .byte byte :: others ∧
      parseReplacement (rest ++ [124, 103]) = some (others, [103])) ∨
    (byte = 38 ∧ ∃ others, parts = .matched :: others) ∨
    (byte = 92 ∧ ∃ escaped tail others, rest = escaped :: tail ∧
      parts = .byte escaped :: others ∧
      parseReplacement (tail ++ [124, 103]) = some (others, [103])) := by
  by_cases ending : byte = 124
  · subst ending
    rw [List.cons_append, parseReplacement] at parsed
    have flags := congrArg List.length (Prod.mk.inj (Option.some.inj parsed)).2
    simp at flags
  by_cases escape : byte = 92
  · subst escape
    right; right
    cases rest with
    | nil => exact absurd parsed (by simp [parseReplacement])
    | cons escaped tail =>
        simp only [List.cons_append, parseReplacement] at parsed
        split at parsed
        · obtain ⟨⟨others, flags⟩, found, pair⟩ := Option.map_eq_some_iff.mp parsed
          obtain ⟨rfl, rfl⟩ := Prod.mk.inj pair
          exact ⟨rfl, escaped, tail, others, rfl, rfl, found⟩
        · cases parsed
  by_cases matched : byte = 38
  · subst matched
    simp only [List.cons_append, parseReplacement] at parsed
    obtain ⟨⟨others, flags⟩, _, pair⟩ := Option.map_eq_some_iff.mp parsed
    exact Or.inr (Or.inl ⟨rfl, others, (Prod.mk.inj pair).1.symm⟩)
  · rw [List.cons_append, parseReplacement_cons byte _ ⟨matched, escape, ending⟩] at parsed
    obtain ⟨⟨others, flags⟩, found, pair⟩ := Option.map_eq_some_iff.mp parsed
    obtain ⟨rfl, rfl⟩ := Prod.mk.inj pair
    exact Or.inl ⟨⟨matched, escape, ending⟩, others, rfl, found⟩

theorem backslashes_shift (count : Nat) (rest : Bytes) :
    List.replicate count (92 : UInt8) ++ 92 :: rest = List.replicate (count + 1) 92 ++ rest := by
  rw [List.replicate_succ', List.append_assoc, List.singleton_append]

/-- A replacement that comes out starting as its own text does is literal: an
`&` puts the start of the line where it stands, and a backslash never comes out
as often as it goes in. The count is of backslashes still owed. -/
theorem expand_literal (line url : Bytes) (count : Nat) (parts : List Part)
    (parsed : parseReplacement (url ++ [124, 103]) = some (parts, [103]))
    (starts : List.replicate count 92 ++ url <+: expand parts (115 :: line)) :
    count = 0 ∧ Literal url := by
  induction measured : url.length using Nat.strong_induction_on generalizing url count parts with
  | _ size ih =>
      cases url with
      | nil =>
          cases parsed
          have empty : List.replicate count (92 : UInt8) ++ [] = [] := List.prefix_nil.mp starts
          exact ⟨by simpa using empty, List.forall_mem_nil _⟩
      | cons byte rest =>
          simp only [List.length_cons] at measured
          rcases parseReplacement_head byte rest parts parsed with
            ⟨literal, others, rfl, found⟩ | ⟨rfl, others, rfl⟩ |
            ⟨rfl, escaped, tail, others, rfl, rfl, found⟩
          · rw [expand_byte] at starts
            cases count with
            | zero =>
                have later := (List.cons_prefix_cons.mp starts).2
                have rest := (ih rest.length (by omega) rest 0 others found later rfl).2
                exact ⟨rfl, List.forall_mem_cons.mpr ⟨literal, rest⟩⟩
            | succ count =>
                rw [List.replicate_succ, List.cons_append] at starts
                exact absurd (List.cons_prefix_cons.mp starts).1.symm literal.2.1
          · rw [expand_matched, List.cons_append] at starts
            cases count with
            | zero => exact absurd (List.cons_prefix_cons.mp starts).1 (by decide)
            | succ count =>
                rw [List.replicate_succ, List.cons_append] at starts
                exact absurd (List.cons_prefix_cons.mp starts).1 (by decide)
          · rw [expand_byte, backslashes_shift, List.replicate_succ, List.cons_append,
              List.cons_prefix_cons] at starts
            obtain ⟨rfl, later⟩ := starts
            rw [backslashes_shift] at later
            simp only [List.length_cons] at measured
            have owed := (ih tail.length (by omega) tail (count + 1) others found later rfl).1
            exact absurd owed (Nat.succ_ne_zero count)

theorem expand_starts (line url : Bytes) (parts : List Part) (valid : ServerUrl url)
    (parsed : parseReplacement (url ++ [124, 103]) = some (parts, [103])) :
    ∃ first rest, expand parts (115 :: line) = first :: rest ∧ 33 ≤ first ∧ first ≤ 126 := by
  have visible := valid.visible
  cases url with
  | nil => exact absurd rfl valid.present
  | cons byte rest =>
      rcases parseReplacement_head byte rest parts parsed with
        ⟨_, others, rfl, _⟩ | ⟨rfl, others, rfl⟩ | ⟨rfl, escaped, tail, others, rfl, rfl, _⟩
      · exact ⟨byte, _, rfl, visible byte (by simp)⟩
      · exact ⟨115, _, rfl, by decide, by decide⟩
      · exact ⟨escaped, _, rfl, visible escaped (by simp)⟩

theorem mem_byte_cons (first byte : UInt8) (parts : List Part) (text : Bytes)
    (later : .byte byte ∈ parts → byte ∈ text) (member : .byte byte ∈ .byte first :: parts) :
    byte ∈ first :: text := by
  rcases List.mem_cons.mp member with same | rest
  · cases same
    exact List.mem_cons_self
  · exact List.mem_cons_of_mem first (later rest)

theorem parseReplacement_bytes (text : Bytes) (parts : List Part) (flags : Bytes)
    (parsed : parseReplacement text = some (parts, flags)) :
    ∀ byte, .byte byte ∈ parts → byte ∈ text := by
  fun_induction parseReplacement text generalizing parts with
  | case1 => cases parsed
  | case2 rest => cases parsed; exact nofun
  | case3 => cases parsed
  | case4 escaped rest defined ih =>
      obtain ⟨⟨others, flags⟩, found, pair⟩ := Option.map_eq_some_iff.mp parsed
      obtain ⟨rfl, rfl⟩ := Prod.mk.inj pair
      intro byte member
      exact List.mem_cons_of_mem 92
        (mem_byte_cons escaped byte others rest (ih others found byte) member)
  | case5 => cases parsed
  | case6 rest ih =>
      obtain ⟨⟨others, flags⟩, found, pair⟩ := Option.map_eq_some_iff.mp parsed
      obtain ⟨rfl, rfl⟩ := Prod.mk.inj pair
      intro byte member
      rcases List.mem_cons.mp member with same | later
      · cases same
      · simp [ih others found byte later]
  | case7 first rest _ _ _ _ ih =>
      obtain ⟨⟨others, flags⟩, found, pair⟩ := Option.map_eq_some_iff.mp parsed
      obtain ⟨rfl, rfl⟩ := Prod.mk.inj pair
      exact fun byte member => mem_byte_cons first byte others rest (ih others found byte) member

theorem expand_free (parts : List Part) (line : Bytes) (free : newline ∉ line)
    (bytes : .byte newline ∉ parts) : newline ∉ expand parts line := by
  intro member
  obtain ⟨part, inside, out⟩ := List.mem_flatMap.mp member
  cases part with
  | byte byte =>
      rw [← List.mem_singleton.mp out] at inside
      exact bytes inside
  | matched => exact free out

/-! ## Ordinary files -/

/-- No read fills the buffer: every line comes back whole. -/
def Fits (file : Bytes) : Prop := ∀ piece ∈ linesOf lineRoom file, piece.length ≤ 510

instance (file : Bytes) : Decidable (Fits file) := List.decidableBAll _ _

def replaced (parts : List Part) (file : Bytes) : Bytes :=
  (rowsOf file).flatMap (editRow fun text => if configures text then expand parts text else text)

/-- Lines that fit the buffer before and after, a script that POSIX defines, and
a URL that `load_config` does not read already. -/
structure Ordinary (cfg : UploaderConfig) (file url : Bytes) : Prop where
  fits : Fits file
  appended : hasUrl file = false → Fits (file ++ echo (urlKey ++ url))
  script : hasUrl file = true → ∃ parts,
    parseReplacement (urlKey ++ url ++ ascii "|g") = some (parts, [103]) ∧
      Fits (replaced parts file)
  fresh : cstring (loadConfig cfg (some file)).serverUrl.toList ≠ url

theorem row_whole (text ending : Bytes) (plain : newline ∉ text)
    (ends : ending = [] ∨ ending = [newline]) (present : text ++ ending ≠ [])
    (fits : ∀ piece ∈ linesOf lineRoom (text ++ ending), piece.length ≤ 510) :
    linesOf lineRoom (text ++ ending) = [text ++ ending] := by
  by_cases short : text.length ≤ 510
  · rcases ends with rfl | rfl
    · rw [List.append_nil] at present ⊢
      exact linesOf_short 510 text plain present short
    · exact linesOf_line 510 text [] plain short
  · -- A longer text would fill the buffer at the first read.
    have full := fgets_full 511 text ending plain (by omega)
    have first := fits (fgets 511 (text ++ ending)).1
      ((linesOf_step 510 (text ++ ending) present) ▸ List.mem_cons_self)
    rw [full, List.length_take_of_le (by omega)] at first
    omega

theorem rowText_plain (row : Bytes) : newline ∉ rowText row := notMem_takeWhile newline row

theorem continuation_nil (file : Bytes) (fits : Fits file) :
    ∀ row ∈ rowsOf file, continuation row = [] := by
  intro row member
  have rows : linesOf lineRoom file = (rowsOf file).flatMap (linesOf lineRoom) :=
    linesOf_rows 510 file
  by_cases empty : row = []
  · subst empty
    rfl
  · have joined := rowText_rowEnd row
    have whole := row_whole (rowText row) (rowEnd row) (rowText_plain row)
      (rowEnd_cases file row member) (by rw [joined]; exact empty) (by
        rw [joined]
        exact fun piece inside => fits piece (rows ▸ List.mem_flatMap.mpr ⟨row, member, inside⟩))
    rw [joined] at whole
    rw [continuation, whole]
    rfl

theorem chomp_text (text ending : Bytes) (plain : newline ∉ text)
    (ends : ending = [] ∨ ending = [newline]) : chomp (text ++ ending) = cstring text := by
  induction text with
  | nil => rcases ends with rfl | rfl <;> rfl
  | cons byte text ih =>
      have first : byte ≠ newline := fun same => plain (same ▸ List.mem_cons_self)
      have tail := ih fun member => plain (List.mem_cons_of_mem byte member)
      by_cases ended : byte = nul
      · simp [chomp, cstring, ended]
      · simp only [chomp, cstring] at tail
        simp [chomp, cstring, first, ended, tail]

theorem settingOf_replaced (text ending url : Bytes) (parts : List Part) (valid : ServerUrl url)
    (parsed : parseReplacement (url ++ [124, 103]) = some (parts, [103]))
    (starts : configures text = true) (free : newline ∉ expand parts text)
    (ends : ending = [] ∨ ending = [newline]) :
    ∃ token, settingOf (urlKey ++ expand parts text ++ ending) =
      some (ascii "server_url", token) ∧ token <+: expand parts text := by
  obtain ⟨line, rfl⟩ : ∃ line, text = 115 :: line := by
    obtain ⟨rest, rfl⟩ := List.isPrefixOf_iff_prefix.mp starts
    exact ⟨_, rfl⟩
  obtain ⟨first, rest, split, low, high⟩ := expand_starts line url parts valid parsed
  have chomped : chomp (urlKey ++ expand parts (115 :: line) ++ ending) =
      ascii "server_url" ++ 61 :: cstring (expand parts (115 :: line)) := by
    rw [List.append_assoc, ← chomp_text _ ending free ends]
    exact chomp_append urlKey _ (by decide) (by decide)
  have present : first ≠ nul := by
    rintro rfl
    exact absurd low (by decide)
  have value : cstring (expand parts (115 :: line)) = first :: cstring rest := by
    simp [split, cstring, present]
  have key := scanUntil_written 63 61 (ascii "server_url") (first :: cstring rest) (by decide)
    (by decide) (by decide)
  obtain ⟨token, tail, read, starts⟩ := scanToken_starts 446 first (cstring rest)
    (visible_solid first low)
  refine ⟨token, ?_, ?_⟩
  · unfold settingOf
    simp only [chomped, value, key]
    rw [if_neg (by simp [ascii])]
    simp only [read, Option.map_some]
  · rw [← value] at starts
    exact starts.trans (List.takeWhile_prefix _)

/-! ## Replacing where the script is defined -/

section
variable (cfg : UploaderConfig) (file url : Bytes) (valid : ServerUrl url) (fits : Fits file)
  (spliced : List Part) (found : parseReplacement (url ++ [124, 103]) = some (spliced, [103]))
include valid fits found

def spliceText (spliced : List Part) (text : Bytes) : Bytes :=
  if configures text then expand (urlKey.map .byte ++ spliced) text else text

omit valid fits found in
theorem expand_splice (text : Bytes) :
    expand (urlKey.map .byte ++ spliced) text = urlKey ++ expand spliced text := by
  simp [expand, List.flatMap_append, List.flatMap_map]

omit fits in
theorem splice_free (text : Bytes) (plain : newline ∉ text) :
    newline ∉ expand spliced text ∧ newline ∉ spliceText spliced text := by
  have noByte : .byte newline ∉ spliced := by
    intro member
    rcases List.mem_append.mp (parseReplacement_bytes _ _ _ found _ member) with inUrl | inEnd
    · exact (url_plain url valid).1 inUrl
    · exact absurd inEnd (by decide)
  have free := expand_free spliced text plain noByte
  refine ⟨free, ?_⟩
  unfold spliceText
  split
  · rw [expand_splice, List.mem_append, not_or]
    exact ⟨by decide, free⟩
  · exact plain

theorem replaced_reads (present : hasUrl file = true)
    (after : Fits (replaced (urlKey.map .byte ++ spliced) file)) :
    ∃ (dest : Vector UInt8 256) (line token : Bytes),
      ((linesOf lineRoom (replaced (urlKey.map .byte ++ spliced) file)).foldl readLine
        (defaults cfg)).serverUrl = strncpy dest token ∧
      token <+: expand spliced (115 :: line) := by
  have pieces : linesOf lineRoom (replaced (urlKey.map .byte ++ spliced) file) =
      ((rowsOf file).map (editRow (spliceText spliced))).flatMap (linesOf lineRoom) :=
    linesOf_edited 510 (spliceText spliced)
      (fun text plain => (splice_free url valid spliced found text plain).2) file
  -- The last URL row decides: no row behind it sets the URL.
  obtain ⟨front, row, split, starts⟩ := split_last (fun row => configures (rowText row)) _ present
  have last : rowsOf file = front ++ row :: rowsAfterUrl file := split
  have inside : row ∈ rowsOf file := by
    rw [last]
    simp
  have ends := rowEnd_cases file row inside
  have others := rowsAfterUrl_rows file
  obtain ⟨mid, _, decided⟩ := last_decides (editRow (spliceText spliced)) front
    (rowsAfterUrl file) row (defaults cfg)
    (fun row member => by
      rw [editRow, spliceText, if_neg (others row member).2]
      exact rowText_rowEnd row)
    (fun row member => (others row member).2)
    (fun row member piece continued => by
      rw [continuation_nil file fits row (others row member).1] at continued
      cases continued)
  have edited : editRow (spliceText spliced) row =
      urlKey ++ expand spliced (rowText row) ++ rowEnd row := by
    rw [editRow, spliceText, if_pos starts, expand_splice]
  have free := splice_free url valid spliced found (rowText row) (rowText_plain row)
  have single := row_whole (spliceText spliced (rowText row)) (rowEnd row) free.2 ends
    (by rw [spliceText, if_pos starts, expand_splice]; simp [urlKey, ascii])
    (fun piece read => after piece (pieces ▸ List.mem_flatMap.mpr
      ⟨_, List.mem_map_of_mem inside, read⟩))
  obtain ⟨token, sets, part⟩ := settingOf_replaced (rowText row) (rowEnd row) url spliced valid
    found starts free.1 ends
  obtain ⟨line, text⟩ : ∃ line, rowText row = 115 :: line := by
    obtain ⟨rest, same⟩ := List.isPrefixOf_iff_prefix.mp starts
    exact ⟨_, same.symm⟩
  refine ⟨mid.serverUrl, line, token, ?_, text ▸ part⟩
  have read : linesOf lineRoom (editRow (spliceText spliced) row) =
      [editRow (spliceText spliced) row] := single
  rw [pieces, last, decided, read, List.foldl_cons, List.foldl_nil, readLine, edited, sets]
  simp only [assign_url]

end

section
variable (other : Bytes → Bytes → Bytes) (cfg : UploaderConfig) (file url : Bytes)
  (valid : ServerUrl url)
include valid

theorem replaced_literal (fits : Fits file) (present : hasUrl file = true) (parts : List Part)
    (parsed : parseReplacement (urlKey ++ url ++ ascii "|g") = some (parts, [103]))
    (after : Fits (replaced parts file)) (agrees : Agrees other cfg (some file) url) :
    Literal url := by
  have updated : updateImageUploader other (some file) url = some (replaced parts file) := by
    unfold updateImageUploader sedInPlace
    rw [if_neg valid.present]
    simp only [present, if_true, parsed]
    rfl
  have read := agrees.1
  rw [updated] at read
  have script : ascii "|g" = [124, 103] := rfl
  rw [List.append_assoc, script, parseReplacement_append urlKey _ (by decide)] at parsed
  obtain ⟨⟨spliced, flags⟩, found, pair⟩ := Option.map_eq_some_iff.mp parsed
  obtain ⟨rfl, rfl⟩ := Prod.mk.inj pair
  obtain ⟨dest, line, token, copied, part⟩ :=
    replaced_reads cfg file url valid fits spliced found present after
  simp only [loadConfig, copied] at read
  have starts := (cstring_strncpy dest token url read valid.short).trans part
  exact (expand_literal line url 0 spliced found starts).2

end

/-! ## Appending after an unterminated line -/

/-- A text in front of the key hides it: the key overlaps no shift of itself. -/
theorem key_hidden (front rest : Bytes) (present : front ≠ []) (other : ¬ urlKey <+: front) :
    ¬ urlKey <+: front ++ (urlKey ++ rest) := by
  intro starts
  have size : urlKey.length = 11 := rfl
  by_cases long : urlKey.length ≤ front.length
  · exact other (List.prefix_of_prefix_length_le starts (List.prefix_append _ _) long)
  · have short : front <+: urlKey :=
      List.prefix_of_prefix_length_le (List.prefix_append _ _) starts (by omega)
    obtain ⟨tail, split⟩ := short
    rw [← split, List.prefix_append_right_inj] at starts
    have shifted : tail = urlKey.drop front.length := by
      rw [← split, List.drop_left]
    have inside : tail <+: urlKey := by
      rw [split] at starts
      refine List.prefix_of_prefix_length_le starts (List.prefix_append _ _) ?_
      rw [shifted, List.length_drop]
      omega
    have some' := List.length_pos_of_ne_nil present
    have none' : ∀ count < 11, 0 < count → ¬ urlKey.drop count <+: urlKey := by decide
    exact none' front.length (by omega) some' (shifted ▸ inside)

theorem absent_key (file : Bytes) (absent : hasUrl file = false) :
    ∀ row ∈ rowsOf file, ¬ urlKey <+: row := by
  intro row member key
  exact List.any_eq_false.mp absent row member ((configures_row row).mpr key)

theorem unset_quiet (file : Bytes) (fits : Fits file) (absent : hasUrl file = false) :
    ∀ row ∈ rowsOf file, ∀ piece ∈ linesOf lineRoom row, setsUrl piece = false := by
  intro row member
  apply otherRow_quiet row (absent_key file absent row member)
  rw [continuation_nil file fits row member]
  exact List.forall_mem_nil _

theorem unset_url (cfg : UploaderConfig) (file : Bytes) (fits : Fits file)
    (absent : hasUrl file = false) :
    (loadConfig cfg (some file)).serverUrl = (defaults cfg).serverUrl := by
  have rows : linesOf lineRoom file = (rowsOf file).flatMap (linesOf lineRoom) :=
    linesOf_rows 510 file
  apply readLines_url
  intro piece member
  rw [rows] at member
  obtain ⟨row, inside, read⟩ := List.mem_flatMap.mp member
  exact unset_quiet file fits absent row inside piece read

theorem appended_joined (cfg : UploaderConfig) (file url : Bytes) (valid : ServerUrl url)
    (fits : Fits file) (absent : hasUrl file = false)
    (after : Fits (file ++ echo (urlKey ++ url))) (open' : unfinished file ≠ []) :
    (loadConfig cfg (some (file ++ echo (urlKey ++ url)))).serverUrl =
      (defaults cfg).serverUrl := by
  obtain ⟨texts, last, shape, plain, lastPlain⟩ := rowsOf_shaped file
  have lastIs : unfinished file = last := by
    rw [unfinished, shape]
    simp
  rw [lastIs] at open'
  have joinedPlain : newline ∉ last ++ (urlKey ++ url) := by
    rw [List.mem_append, not_or]
    exact ⟨lastPlain, (urlLine_plain url valid).1⟩
  have shaped : Shaped (texts.map (fun text => text ++ [newline]) ++
      [last ++ (urlKey ++ url) ++ [newline]] ++ [[]]) (texts ++ [last ++ (urlKey ++ url)]) [] := by
    refine ⟨by simp, ?_, List.not_mem_nil⟩
    intro text member
    rcases List.mem_append.mp member with earlier | joined
    · exact plain text earlier
    · exact List.mem_singleton.mp joined ▸ joinedPlain
  have content : (texts.map (fun text => text ++ [newline]) ++
      [last ++ (urlKey ++ url) ++ [newline]] ++ [[]]).flatten =
      file ++ echo (urlKey ++ url) := by
    have whole := flatten_rowsOf file
    rw [shape] at whole
    rw [← whole]
    simp [echo]
  have pieces := linesOf_shaped 510 _ _ _ shaped
  rw [content] at pieces
  have joined := row_whole (last ++ (urlKey ++ url)) [newline] joinedPlain (Or.inr rfl) (by simp)
    (fun piece inside => after piece (pieces ▸ List.mem_flatMap.mpr ⟨_, by simp, inside⟩))
  -- The text of the open last line stands before the key.
  have hidden : ¬ urlKey <+: last ++ (urlKey ++ url) ++ [newline] := by
    rw [List.append_assoc, List.append_assoc]
    exact key_hidden last _ open' (absent_key file absent last (by rw [shape]; simp))
  apply readLines_url
  intro piece member
  rw [show linesOf lineRoom (file ++ echo (urlKey ++ url)) = _ from pieces] at member
  obtain ⟨row, inside, read⟩ := List.mem_flatMap.mp member
  simp only [List.mem_append, List.mem_singleton] at inside
  rcases inside with (earlier | rfl) | rfl
  · exact unset_quiet file fits absent row (by rw [shape]; simp [earlier]) piece read
  · refine otherRow_quiet _ hidden ?_ piece read
    rw [continuation, joined]
    exact List.forall_mem_nil _
  · cases read

/-! ## The condition -/

theorem agrees_updateSafe (other : Bytes → Bytes → Bytes) (cfg : UploaderConfig)
    (config : Option Bytes) (url : Bytes) (valid : ServerUrl url)
    (ordinary : ∀ file ∈ config, Ordinary cfg file url)
    (agrees : Agrees other cfg config url) : UpdateSafe cfg config url := by
  refine ⟨agrees_room other cfg config url valid agrees, ?_⟩
  cases config with
  | none => trivial
  | some file =>
      obtain ⟨fits, appended, script, fresh⟩ := ordinary file rfl
      simp only
      by_cases present : hasUrl file = true
      · rw [if_pos present]
        obtain ⟨parts, parsed, after⟩ := script present
        refine ⟨replaced_literal other cfg file url valid fits present parts parsed after agrees,
          fun row member _ => ?_, fun row member => ?_⟩
        · rw [continuation_nil file fits row member]
          exact List.forall_mem_nil _
        · rw [continuation_nil file fits row (rowsAfterUrl_rows file row member).1]
          exact List.forall_mem_nil _
      · rw [if_neg present]
        have absent : hasUrl file = false := by simpa using present
        by_contra unfinished'
        have open' : unfinished file ≠ [] := by
          intro empty
          rw [empty] at unfinished'
          exact unfinished' rfl
        -- The URL is appended to a line that is not finished, and is not read.
        have updated : updateImageUploader other (some file) url =
            some (file ++ echo (urlKey ++ url)) := by
          unfold updateImageUploader
          rw [if_neg valid.present]
          simp only [absent, Bool.false_eq_true, if_false]
        have read := agrees.1
        rw [updated, appended_joined cfg file url valid fits absent (appended absent) open',
          ← unset_url cfg file fits absent] at read
        exact fresh read

/-- Both readers get the URL: data-collector always; image-uploader, with its
other fields as they were, under the condition, which on ordinary files is exact. -/
theorem url_updates_agree (other : Bytes → Bytes → Bytes) (cfg : UploaderConfig)
    (current : Bytes) (uploader collector : Option Bytes) (url : Bytes) (valid : ServerUrl url) :
    loadServerUrl current (updateDataCollector collector url) = url ∧
      (UpdateSafe cfg uploader url → Agrees other cfg uploader url) ∧
      ((∀ file ∈ uploader, Ordinary cfg file url) →
        (Agrees other cfg uploader url ↔ UpdateSafe cfg uploader url)) :=
  ⟨dataCollector_agrees current collector url valid,
    updateSafe_agrees other cfg uploader url valid,
    fun ordinary => ⟨agrees_updateSafe other cfg uploader url valid ordinary,
      updateSafe_agrees other cfg uploader url valid⟩⟩

/-- A struct as it may come to `load_config`: `main` does not clear it. -/
def filled (byte : UInt8) : UploaderConfig where
  serverUrl := Vector.replicate 256 byte
  deviceId := Vector.replicate 64 byte
  v4l2Dev := Vector.replicate 64 byte
  captureDir := Vector.replicate 256 byte
  apiKey := Vector.replicate 256 byte
  width := 0
  height := 0
  interval := 0
  maxRetries := 0
  retryDelay := 0

def commentedFile : Bytes :=
  ascii "# uploader" ++ [newline] ++ ascii "server_url=http://a/" ++ [newline] ++
    ascii "width=640" ++ [newline]

theorem url_updates_agree_commented :
    loadServerUrl [] (updateDataCollector (some (ascii "http://a/data")) (ascii "http://h/")) =
      ascii "http://h/" ∧
    Agrees (fun _ file => file) (filled 0) (some commentedFile) (ascii "http://h/") := by
  obtain ⟨data, images, _⟩ := url_updates_agree (fun _ file => file) (filled 0) []
    (some commentedFile) (some (ascii "http://a/data")) (ascii "http://h/") (by decide)
  refine ⟨data, images ⟨Or.inl (by decide), ?_⟩⟩
  simp only
  rw [if_pos (by decide +kernel)]
  exact ⟨by decide, by decide +kernel, by decide +kernel⟩

/-- An `&` in the URL, a last line with no newline, a URL that fills its field,
an over-long line after the URL line. -/
theorem url_updates_disagree :
    ServerUrl (ascii "http://h/i?a=1&b=2") ∧
    ¬ Agrees (fun _ file => file) (filled 0) (some commentedFile) (ascii "http://h/i?a=1&b=2") ∧
    ¬ Agrees (fun _ file => file) (filled 0) (some (ascii "api_key=k")) (ascii "http://h/") ∧
    ¬ Agrees (fun _ file => file) (filled 1) none (List.replicate 255 97) ∧
    ¬ Agrees (fun _ file => file) (filled 0)
      (some (ascii "server_url=http://a/" ++ [newline] ++ ascii "#" ++ List.replicate 510 97 ++
        ascii "server_url=http://a/" ++ [newline])) (ascii "http://h/") := by
  refine ⟨by decide, by decide +kernel, by decide +kernel, fun agrees => ?_, by decide +kernel⟩
  have room := agrees_room _ _ _ _ (by decide +kernel) agrees
  exact absurd room (by decide +kernel)

end SensorNode.UrlAgreement
