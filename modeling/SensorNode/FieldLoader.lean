import SensorNode.ConfigLoad
import Mathlib.Data.List.GetD

/-!
Loaders of a record with text fields of fixed size and numbers, over the `key=value`
lines of a file. A text field is written with `strncpy` of one byte less than its
size: all of it but the last byte is that of the last value given, and the last byte
is that of the memory the record was put in.
-/

namespace SensorNode.FieldLoader

open LineStream DecimalText ScanText ConfigLoad

/-! ## One field -/

section
variable {size : Nat}

def lastOf (field : Vector UInt8 size) : UInt8 := field.toList.getD (size - 1) nul

/-- A NUL stands inside the array. -/
def Terminated (field : Vector UInt8 size) : Prop := nul ∈ field.toList

def covered (size : Nat) (text : Bytes) : Bytes :=
  (List.range (size - 1)).map fun place => text.getD place nul

variable (dest : Vector UInt8 size) (text : Bytes)

theorem strncpy_toList (positive : 0 < size) :
    (strncpy dest text).toList = covered size text ++ [lastOf dest] := by
  have whole : (covered size text).length = size - 1 := by simp [covered]
  apply List.ext_getElem
  · rw [List.length_append, whole, Vector.length_toList, List.length_singleton]
    omega
  · intro place inside _
    rw [Vector.length_toList] at inside
    by_cases front : place + 1 < size
    · rw [List.getElem_append_left (by omega)]
      simp [strncpy, covered, front]
    · have last : place = size - 1 := by omega
      subst last
      rw [List.getElem_append_right (by omega)]
      have outside : ¬ size - 1 + 1 < size := by omega
      have there : lastOf dest = dest[size - 1] := by
        unfold lastOf
        rw [List.getD_eq_getElem _ _ (by simpa using inside), Vector.getElem_toList]
      simp [strncpy, outside, there]

theorem strncpy_strncpy (other : Bytes) :
    strncpy (strncpy dest other) text = strncpy dest text := by
  apply Vector.ext
  intro place inside
  by_cases front : place + 1 < size
  · simp [strncpy, front]
  · simp [strncpy, front]

theorem covered_nul (plain : nul ∉ text) :
    nul ∈ covered size text ↔ text.length + 1 < size := by
  simp only [covered, List.mem_map, List.mem_range]
  constructor
  · rintro ⟨place, inside, zero⟩
    by_contra long
    have within : place < text.length := by omega
    rw [List.getD_eq_getElem _ _ within] at zero
    exact plain (zero ▸ List.getElem_mem within)
  · intro short
    exact ⟨text.length, by omega, List.getD_eq_default _ _ le_rfl⟩

theorem cstring_append (front back : Bytes) (ends : nul ∈ front) :
    cstring (front ++ back) = cstring front := by
  induction front with
  | nil => cases ends
  | cons byte rest ih =>
      by_cases zero : byte = nul
      · simp [cstring, zero]
      · have later : nul ∈ rest := (List.mem_cons.mp ends).resolve_left (Ne.symm zero)
        have tail := ih later
        unfold cstring at *
        simp [zero, tail]

/-- Two copies of one text into different memory are both strings, and the same one,
exactly when the text leaves room for its NUL or the memory supplies it. -/
theorem strncpy_same_iff (other : Vector UInt8 size) (positive : 0 < size) (plain : nul ∉ text) :
    (Terminated (strncpy dest text) ∧ Terminated (strncpy other text) ∧
        cstring (strncpy dest text).toList = cstring (strncpy other text).toList) ↔
      text.length + 1 < size ∨ (lastOf dest = nul ∧ lastOf other = nul) := by
  unfold Terminated
  rw [strncpy_toList dest text positive, strncpy_toList other text positive, List.mem_append,
    List.mem_append, List.mem_singleton, List.mem_singleton, covered_nul text plain]
  constructor
  · rintro ⟨first, second, _⟩
    rcases first with short | first
    · exact .inl short
    · rcases second with short | second
      · exact .inl short
      · exact .inr ⟨first.symm, second.symm⟩
  · rintro (short | ⟨first, second⟩)
    · have ends := (covered_nul text plain).mpr short
      exact ⟨.inl short, .inl short, by rw [cstring_append _ _ ends, cstring_append _ _ ends]⟩
    · exact ⟨.inr first.symm, .inr second.symm, by rw [first, second]⟩

end

/-! ## The lines -/

theorem scanToken_subset (width : Nat) (text item rest : Bytes)
    (scanned : scanToken width text = some (item, rest)) : item ⊆ text := by
  unfold scanToken at scanned
  simp only at scanned
  split at scanned
  · cases scanned
  · obtain ⟨rfl, _⟩ := Prod.mk.inj (Option.some.inj scanned)
    intro byte member
    have taken := (List.takeWhile_sublist _).subset member
    exact (List.dropWhile_sublist _).subset (List.mem_of_mem_take taken)

theorem settingOf_plain (line key val : Bytes) (set : settingOf line = some (key, val)) :
    nul ∉ val := by
  have plain : nul ∉ chomp line := by
    intro member
    have kept := List.mem_takeWhile_imp member
    simp at kept
  unfold settingOf at set
  simp only at set
  split at set
  · cases set
  · split at set
    · next item rest scanned =>
        have whole := (scanUntil_item 63 61 (chomp line) item (61 :: rest) scanned).1
        obtain ⟨read, token, same⟩ := Option.map_eq_some_iff.mp set
        obtain ⟨_, rfl⟩ := Prod.mk.inj same
        intro member
        have inside := scanToken_subset 447 rest read.1 read.2 token member
        rw [whole] at plain
        exact plain (List.mem_append_right _ (List.mem_cons_of_mem _ inside))
    · cases set

def settingFor (key line : Bytes) : Option Bytes :=
  (settingOf line).bind fun setting => if setting.1 = key then some setting.2 else none

def lastValue (key value : Bytes) (lines : List Bytes) : Bytes :=
  lines.foldl (fun value line => (settingFor key line).getD value) value

theorem lastValue_plain (key value : Bytes) (lines : List Bytes) (plain : nul ∉ value) :
    nul ∉ lastValue key value lines := by
  induction lines generalizing value with
  | nil => exact plain
  | cons line rest ih =>
      apply ih
      show nul ∉ (settingFor key line).getD value
      unfold settingFor
      cases set : settingOf line with
      | none => exact plain
      | some setting =>
          have free := settingOf_plain line setting.1 setting.2 set
          rw [Option.bind_some]
          split
          · exact free
          · exact plain

/-! ## Loaders -/

/-- A loader by its fields: what the defaults and a line do to each of them. -/
structure Loader (Config : Type) where
  Text : Type
  Number : Type
  size : Text → Nat
  textKey : Text → Bytes
  textDefault : Text → Bytes
  text : (field : Text) → Config → Vector UInt8 (size field)
  numberKey : Number → Bytes
  numberDefault : Number → Int32
  number : Number → Config → Int32
  defaults : Config → Config
  readLine : Config → Bytes → Config
  positive : ∀ field, 0 < size field
  default_plain : ∀ field, nul ∉ textDefault field
  defaults_text : ∀ field cfg, text field (defaults cfg) =
    strncpy (text field cfg) (textDefault field)
  defaults_number : ∀ field cfg, number field (defaults cfg) = numberDefault field
  readLine_text : ∀ field cfg line, text field (readLine cfg line) =
    (settingFor (textKey field) line).elim (text field cfg) (strncpy (text field cfg))
  readLine_number : ∀ field cfg line, number field (readLine cfg line) =
    (settingFor (numberKey field) line).elim (number field cfg) atoi

def fileLines : Option Bytes → List Bytes
  | none => []
  | some file => linesOf lineRoom file

namespace Loader

variable {Config : Type} (loader : Loader Config)

/-- `load_config`; no file is no line. -/
def load (cfg : Config) (file : Option Bytes) : Config :=
  (fileLines file).foldl loader.readLine (loader.defaults cfg)

def given (field : loader.Text) (file : Option Bytes) : Bytes :=
  lastValue (loader.textKey field) (loader.textDefault field) (fileLines file)

theorem readLines_text (field : loader.Text) (cfg : Config)
    (dest : Vector UInt8 (loader.size field)) (value : Bytes)
    (so : loader.text field cfg = strncpy dest value) (lines : List Bytes) :
    loader.text field (lines.foldl loader.readLine cfg) =
      strncpy dest (lastValue (loader.textKey field) value lines) := by
  induction lines generalizing cfg value with
  | nil => exact so
  | cons line rest ih =>
      apply ih
      rw [loader.readLine_text]
      show _ = strncpy dest ((settingFor (loader.textKey field) line).getD value)
      cases settingFor (loader.textKey field) line with
      | none => exact so
      | some val =>
          show strncpy (loader.text field cfg) val = strncpy dest val
          rw [so, strncpy_strncpy]

theorem load_text (field : loader.Text) (cfg : Config) (file : Option Bytes) :
    loader.text field (loader.load cfg file) =
      strncpy (loader.text field cfg) (loader.given field file) :=
  loader.readLines_text field _ _ _ (loader.defaults_text field cfg) _

theorem readLines_number (field : loader.Number) (lines : List Bytes) (first second : Config)
    (same : loader.number field first = loader.number field second) :
    loader.number field (lines.foldl loader.readLine first) =
      loader.number field (lines.foldl loader.readLine second) := by
  induction lines generalizing first second with
  | nil => exact same
  | cons line rest ih =>
      apply ih
      rw [loader.readLine_number, loader.readLine_number, same]

theorem load_number (field : loader.Number) (first second : Config) (file : Option Bytes) :
    loader.number field (loader.load first file) = loader.number field (loader.load second file) :=
  loader.readLines_number field _ _ _
    ((loader.defaults_number field first).trans (loader.defaults_number field second).symm)

/-- All texts are strings inside their arrays, and both records hold the same strings
and numbers. -/
structure Same (first second : Config) : Prop where
  texts : ∀ field, Terminated (loader.text field first) ∧ Terminated (loader.text field second) ∧
    cstring (loader.text field first).toList = cstring (loader.text field second).toList
  numbers : ∀ field, loader.number field first = loader.number field second

/-- Every text leaves room for its NUL, or the last byte of the field was one. -/
def Roomy (first second : Config) (file : Option Bytes) : Prop :=
  ∀ field, (loader.given field file).length + 1 < loader.size field ∨
    (lastOf (loader.text field first) = nul ∧ lastOf (loader.text field second) = nul)

theorem load_same_iff (first second : Config) (file : Option Bytes) :
    loader.Same (loader.load first file) (loader.load second file) ↔
      loader.Roomy first second file := by
  have plain (field : loader.Text) : nul ∉ loader.given field file :=
    lastValue_plain _ _ _ (loader.default_plain field)
  have each (field : loader.Text) := strncpy_same_iff (loader.text field first)
    (loader.given field file) (loader.text field second) (loader.positive field) (plain field)
  constructor
  · intro same field
    have texts := same.texts field
    rw [load_text, load_text] at texts
    exact (each field).mp texts
  · intro roomy
    constructor
    · intro field
      rw [load_text, load_text]
      exact (each field).mpr (roomy field)
    · exact fun field => loader.load_number field first second file

end Loader

end SensorNode.FieldLoader
