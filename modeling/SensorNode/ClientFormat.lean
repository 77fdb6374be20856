import SensorNode.ClientConfig
import SensorNode.TextRows
import SensorNode.LastSetting

/-!
The file format that `read_config` of the sensor clients implements. The code sees a file
in pieces of at most 127 bytes and converts with no end pointer; the format is made of
lines, whatever their length, and of complete numbers. A line is sound where this makes no
difference, by what its bytes and its value are: a client reads a file of such lines as the
format says, and every other line that fits the buffer breaks some file that it ends.
-/

namespace SensorNode.ClientConfig

open LineStream TextRows IntegerText LastSetting

/-! ## The format -/

/-- What the format makes of a value: a complete number in the checked range, or nothing. -/
def Conversion.gives : Conversion → Bytes → Option Value
  | .text, val => some (.text val)
  | .unsigned most, val | .implicit most, val =>
      ((completeNumber 0 val).filter fun number => 0 ≤ number && number ≤ (most : Int)).map .number
  | .long least, val =>
      ((completeNumber 10 val).filter fun number => (least : Int) ≤ number).map .number

def Conversion.Rejects : Conversion → Bytes → Prop
  | .text, _ => False
  | .unsigned most, val => most < strtoul 0 val
  | .implicit most, val => most < strtoulImplicit 0 val
  | .long least, val => strtol 10 val < (least : Int)

/-- A text that leaves room for its NUL; a complete number that can be stored. -/
def Conversion.Complete : Conversion → Bytes → Prop
  | .text, val => val.length ≤ 63
  | .unsigned most, val | .implicit most, val =>
      ∃ number ∈ completeNumber 0 val, 0 ≤ number ∧ number ≤ (most : Int)
  | .long _, val => ∃ number ∈ completeNumber 10 val, number < 2 ^ 32

instance (conversion : Conversion) (val : Bytes) : Decidable (conversion.Rejects val) := by
  cases conversion <;> unfold Conversion.Rejects <;> infer_instance

instance (conversion : Conversion) (val : Bytes) : Decidable (conversion.Complete val) := by
  cases conversion <;> unfold Conversion.Complete <;> infer_instance

def Conversion.Sound (conversion : Conversion) (val : Bytes) : Prop :=
  conversion.Rejects val ∨ conversion.Complete val

instance (conversion : Conversion) (val : Bytes) : Decidable (conversion.Sound val) :=
  inferInstanceAs (Decidable (_ ∨ _))

/-- The line is read in one piece and holds no NUL. -/
def Fitting (line : Bytes) : Prop := (rowText line).length ≤ 126 ∧ nul ∉ line

instance (line : Bytes) : Decidable (Fitting line) := inferInstanceAs (Decidable (_ ∧ _))

def Conversion.Bounded : Conversion → Prop
  | .text => True
  | .unsigned bound | .implicit bound | .long bound => bound < 2 ^ 31

theorem Conversion.takes_none (conversion : Conversion) (val : Bytes) :
    conversion.takes val = none ↔ conversion.Rejects val := by
  cases conversion <;> simp [takes, Rejects]

section
variable (most parsed : Nat) (val : Bytes) (exact' : ∀ number : Nat,
  completeNumber 0 val = some (number : Int) → number ≤ most → parsed = number)
include exact'

theorem inRange_complete
    (complete : ∃ number ∈ completeNumber 0 val, 0 ≤ number ∧ number ≤ (most : Int)) :
    (if parsed ≤ most then some (Value.number parsed) else none) =
      ((completeNumber 0 val).filter fun number => 0 ≤ number && number ≤ (most : Int)).map
        .number := by
  obtain ⟨number, read, positive, inside⟩ := complete
  obtain ⟨count, rfl⟩ := Int.eq_ofNat_of_zero_le positive
  have taken := exact' count read (by omega)
  simp [Option.mem_def.mp read, taken, Int.ofNat_le.mp inside]

theorem outOfRange_none (beyond : most < parsed) :
    ((completeNumber 0 val).filter fun number => 0 ≤ number && number ≤ (most : Int)).map
      Value.number = none := by
  rw [Option.map_eq_none_iff, Option.filter_eq_none_iff]
  intro number read inside
  simp only [Bool.and_eq_true, decide_eq_true_eq] at inside
  obtain ⟨count, rfl⟩ := Int.eq_ofNat_of_zero_le inside.1
  have taken := exact' count read (by omega)
  omega

end

theorem Conversion.takes_complete (conversion : Conversion) (val : Bytes)
    (bounded : conversion.Bounded) (complete : conversion.Complete val) :
    conversion.takes val = conversion.gives val := by
  cases conversion with
  | text => exact congrArg (some <| Value.text ·) (List.take_of_length_le complete)
  | unsigned most =>
      have small : most < 2 ^ 31 := bounded
      exact inRange_complete most _ val
        (fun number read inside => strtoul_complete 0 val number read (by omega)) complete
  | implicit most =>
      have small : most < 2 ^ 31 := bounded
      exact inRange_complete most _ val
        (fun number read inside => strtoulImplicit_complete 0 val number read (by omega)) complete
  | long least =>
      obtain ⟨number, read, small⟩ := complete
      have taken := strtol_complete 10 val number read
      simp only [takes, gives, Option.mem_def.mp read, Option.filter_some, decide_eq_true_eq]
      by_cases inside : (least : Int) ≤ number
      · have same : strtol 10 val = number := by omega
        have stored : ((number.toNat % 2 ^ 32 : Nat) : Int) = number := by omega
        rw [same, if_pos inside, if_pos inside, stored]
        rfl
      · rw [if_neg (by omega), if_neg inside]
        rfl

theorem Conversion.gives_rejected (conversion : Conversion) (val : Bytes)
    (bounded : conversion.Bounded) (rejected : conversion.Rejects val) :
    conversion.gives val = none := by
  cases conversion with
  | text => cases rejected
  | unsigned most =>
      have small : most < 2 ^ 31 := bounded
      exact outOfRange_none most _ val
        (fun number read inside => strtoul_complete 0 val number read (by omega)) rejected
  | implicit most =>
      have small : most < 2 ^ 31 := bounded
      exact outOfRange_none most _ val
        (fun number read inside => strtoulImplicit_complete 0 val number read (by omega)) rejected
  | long least =>
      have small : least < 2 ^ 31 := bounded
      have below : strtol 10 val < (least : Int) := rejected
      rw [gives, Option.map_eq_none_iff, Option.filter_eq_none_iff]
      intro number read inside
      have taken := strtol_complete 10 val number read
      have checked := of_decide_eq_true inside
      omega

theorem Conversion.complete_of_gives (conversion : Conversion) (val : Bytes) (value : Value)
    (taken : conversion.takes val = some value) (given : conversion.gives val = some value) :
    conversion.Complete val := by
  cases conversion with
  | text =>
      rw [takes, ← given, gives, Option.some.injEq, Value.text.injEq] at taken
      have size := congrArg List.length taken
      rw [List.length_take] at size
      exact min_eq_right_iff.mp size
  | unsigned most | implicit most =>
      obtain ⟨number, read, _⟩ := Option.map_eq_some_iff.mp given
      obtain ⟨complete, inside⟩ := Option.filter_eq_some_iff.mp read
      simp only [Bool.and_eq_true, decide_eq_true_eq] at inside
      exact ⟨number, complete, inside⟩
  | long least =>
      obtain ⟨number, read, rfl⟩ := Option.map_eq_some_iff.mp given
      obtain ⟨complete, _⟩ := Option.filter_eq_some_iff.mp read
      refine ⟨number, complete, ?_⟩
      rw [takes] at taken
      split at taken
      · have stored := Value.number.inj (Option.some.inj taken)
        omega
      · cases taken

theorem Conversion.takes_iff (conversion : Conversion) (val : Bytes)
    (bounded : conversion.Bounded) :
    conversion.takes val = conversion.gives val ↔ conversion.Sound val := by
  constructor
  · intro same
    cases taken : conversion.takes val with
    | none => exact .inl ((conversion.takes_none val).mp taken)
    | some value =>
        exact .inr (conversion.complete_of_gives val value taken (same.symm.trans taken))
  · rintro (rejected | complete)
    · rw [(conversion.takes_none val).mpr rejected,
        conversion.gives_rejected val bounded rejected]
    · exact conversion.takes_complete val bounded complete

def lineSetting (line : Bytes) : Option (Bytes × Bytes) :=
  if line.head? = some 35 then none else keyValue line

def logicalLines (file : Option Bytes) : List Bytes := file.elim [] rowsOf

namespace Client

variable (client : Client) (setting : client.Setting)

def takesLine (line : Bytes) : Option Value :=
  lastSetting (client.takes setting) (linesOf clientRoom line)

def gives (line : Bytes) : Option Value :=
  (lineSetting line).bind fun read =>
    if read.1 = client.key setting then (client.conversion setting).gives read.2 else none

def formatted (file : Option Bytes) : Value :=
  (logicalLines file).foldl (fun value line => (client.gives setting line).getD value)
    (client.value setting client.defaults)

def Implements (file : Option Bytes) : Prop :=
  ∀ setting, client.value setting (client.readConfig file) = client.formatted setting file

def carried (read : Option (Bytes × Bytes)) : Option Bytes :=
  (read.filter fun pair => pair.1 = client.key setting).map Prod.snd

/-- Read in one piece, a line is sound unless it carries an unsound value for the setting.
Otherwise it is if it sets nothing in the format and the check turns down the value of each
piece that names the setting. -/
def Sound (line : Bytes) : Prop :=
  if Fitting line then
    ∀ val ∈ client.carried setting (lineSetting line), (client.conversion setting).Sound val
  else
    (∀ val ∈ client.carried setting (lineSetting line),
      (client.conversion setting).gives val = none) ∧
    ∀ piece ∈ linesOf clientRoom line, ∀ val ∈ client.carried setting (pieceSetting piece),
      (client.conversion setting).Rejects val

instance (line : Bytes) : Decidable (client.Sound setting line) := by
  unfold Sound
  infer_instance

/-- For each setting all lines are sound, or all from some line on, and one of these sets
it. -/
def Decided (file : Option Bytes) : Prop :=
  ∀ setting, ∃ front back, logicalLines file = front ++ back ∧
    (∀ line ∈ back, client.Sound setting line) ∧
    (front = [] ∨ ∃ line ∈ back, client.gives setting line ≠ none)

/-- What the proofs need to know of a client: bounds that fit the types, a key for each
setting, and for each a line that changes it. -/
structure Regular : Prop where
  bounded : ∀ setting, (client.conversion setting).Bounded
  keys : Function.Injective client.key
  changes : ∀ setting, ∃ text val value, newline ∉ text ∧ Fitting (text ++ [newline]) ∧
    lineSetting (text ++ [newline]) = some (client.key setting, val) ∧
    (client.conversion setting).Complete val ∧
    (client.conversion setting).gives val = some value ∧
    value ≠ client.value setting client.defaults

end Client

/-! ## Pieces and lines -/

theorem pieceSetting_line (line : Bytes) (plain : nul ∉ line)
    (ended : line.head? = some newline → line = [newline]) :
    pieceSetting line = lineSetting line := by
  unfold pieceSetting lineSetting
  rw [cstring_self line plain]
  by_cases comment : line.head? = some 35
  · rw [if_pos (Or.inl comment), if_pos comment]
  · rw [if_neg comment]
    by_cases empty : line.head? = some newline
    · rw [if_pos (Or.inr empty), ended empty]
      rfl
    · rw [if_neg (not_or.mpr ⟨comment, empty⟩)]

theorem linesOf_fitting (file line : Bytes) (member : line ∈ rowsOf file)
    (short : (rowText line).length ≤ 126) (present : line ≠ []) :
    linesOf clientRoom line = [line] := by
  have plain : newline ∉ rowText line := notMem_takeWhile newline line
  have whole := rowText_rowEnd line
  rcases rowEnd_cases file line member with unended | ended
  · rw [unended, List.append_nil] at whole
    rw [whole] at plain short
    exact linesOf_short 126 line plain present short
  · rw [ended] at whole
    rw [← whole]
    exact linesOf_line 126 (rowText line) [] plain short

theorem row_head_newline (file line : Bytes) (member : line ∈ rowsOf file)
    (starts : line.head? = some newline) : line = [newline] := by
  have whole := rowText_rowEnd line
  have empty : rowText line = [] := by
    cases line with
    | nil => rfl
    | cons byte rest => simp [rowText, Option.some.inj starts]
  rw [empty, List.nil_append] at whole
  rcases rowEnd_cases file line member with unended | ended
  · rw [← whole, unended] at starts
    cases starts
  · rw [← whole, ended]

namespace Client

variable (client : Client) (setting : client.Setting)

theorem mem_carried (read : Option (Bytes × Bytes)) (val : Bytes) :
    val ∈ client.carried setting read ↔ read = some (client.key setting, val) := by
  cases read with
  | none => simp [carried]
  | some pair =>
      obtain ⟨key, other⟩ := pair
      by_cases named : key = client.key setting <;> simp [carried, named]

theorem takesLine_fitting (file line : Bytes) (member : line ∈ rowsOf file)
    (fitting : Fitting line) :
    client.takesLine setting line = (lineSetting line).bind fun read =>
      if read.1 = client.key setting then (client.conversion setting).takes read.2 else none := by
  by_cases present : line = []
  · subst present
    rfl
  · unfold takesLine takes
    rw [linesOf_fitting file line member fitting.1 present, lastSetting_singleton,
      pieceSetting_line line fitting.2 (row_head_newline file line member)]

theorem fitting_same_iff (regular : client.Regular) (file line : Bytes)
    (member : line ∈ rowsOf file) (fitting : Fitting line) :
    client.takesLine setting line = client.gives setting line ↔ client.Sound setting line := by
  rw [takesLine_fitting client setting file line member fitting, gives, Sound, if_pos fitting]
  cases read : lineSetting line with
  | none => simp [carried]
  | some pair =>
      obtain ⟨key, val⟩ := pair
      by_cases named : key = client.key setting
      · subst named
        have values := Conversion.takes_iff _ val (regular.bounded setting)
        simpa [carried] using values
      · simp [carried, named]

theorem sound_same (regular : client.Regular) (file line : Bytes) (member : line ∈ rowsOf file)
    (sound : client.Sound setting line) :
    client.takesLine setting line = client.gives setting line := by
  by_cases fitting : Fitting line
  · exact (client.fitting_same_iff setting regular file line member fitting).mpr sound
  · rw [Sound, if_neg fitting] at sound
    have nothing : client.takesLine setting line = none := by
      apply (lastSetting_eq_none _ _).mpr
      intro piece inside
      unfold takes
      cases read : pieceSetting piece with
      | none => rfl
      | some pair =>
          by_cases named : pair.1 = client.key setting
          · have rejected := sound.2 piece inside pair.2
              ((client.mem_carried setting _ _).mpr (by rw [read, ← named]))
            simp only [Option.bind_some, if_pos named]
            exact (Conversion.takes_none _ _).mpr rejected
          · simp only [Option.bind_some, if_neg named]
    rw [nothing, gives]
    cases read : lineSetting line with
    | none => rfl
    | some pair =>
        by_cases named : pair.1 = client.key setting
        · have given := sound.1 pair.2
            ((client.mem_carried setting _ _).mpr (by rw [read, ← named]))
          simp only [Option.bind_some, if_pos named, given]
        · simp only [Option.bind_some, if_neg named]

theorem readConfig_value (file : Option Bytes) :
    client.value setting (client.readConfig file) =
      (lastSetting (client.takesLine setting) (logicalLines file)).getD
        (client.value setting client.defaults) := by
  unfold readConfig
  rw [foldl_lastSetting (client.takes setting) (client.value setting) client.readLine
    (client.readLine_value setting)]
  cases file with
  | none => rfl
  | some bytes =>
      -- `fgets` never reads past a newline, so the pieces are those of the lines.
      show (lastSetting _ (linesOf (126 + 1) bytes)).getD _ = _
      rw [linesOf_rows, lastSetting_flatMap]
      rfl

theorem formatted_value (file : Option Bytes) :
    client.formatted setting file =
      (lastSetting (client.gives setting) (logicalLines file)).getD
        (client.value setting client.defaults) :=
  foldl_lastSetting (client.gives setting) id _ (fun _ _ => rfl) _ _

theorem implements_of_decided (regular : client.Regular) (file : Option Bytes)
    (decided : client.Decided file) : client.Implements file := by
  intro setting
  obtain ⟨front, back, lines, sound, enough⟩ := decided setting
  have same : lastSetting (client.takesLine setting) back =
      lastSetting (client.gives setting) back := by
    apply lastSetting_congr
    intro line inside
    cases file with
    | none => cases lines ▸ List.mem_append_right front inside
    | some bytes =>
        have member : line ∈ logicalLines (some bytes) :=
          lines ▸ List.mem_append_right front inside
        exact client.sound_same setting regular bytes line member (sound line inside)
  rw [readConfig_value, formatted_value, lines, lastSetting_append, lastSetting_append, same]
  rcases enough with rfl | ⟨line, inside, set⟩
  · rfl
  · -- What stands before is overwritten.
    cases last : lastSetting (client.gives setting) back with
    | none => exact absurd ((lastSetting_eq_none _ _).mp last line inside) set
    | some value => rfl

/-- Lines that end in their newline and are sound for every setting. -/
def SoundLines (front : List Bytes) : Prop :=
  ∀ text ∈ front, newline ∉ text ∧ ∀ setting, client.Sound setting (text ++ [newline])

theorem sound_nil : client.Sound setting [] := by
  rw [Sound, if_pos (by decide)]
  exact nofun

theorem implements_sound (regular : client.Regular) (front : List Bytes) (file line : Bytes)
    (member : line ∈ rowsOf file) (before : client.SoundLines front)
    (sound : ∀ setting, client.Sound setting line) :
    client.Implements (some (framed front ++ line)) := by
  apply client.implements_of_decided regular
  intro setting
  refine ⟨[], rowsOf (framed front ++ line), rfl, ?_, .inl rfl⟩
  intro row inside
  rw [rowsOf_framed front line fun text own => (before text own).1] at inside
  rcases List.mem_append.mp inside with early | last
  · obtain ⟨text, own, rfl⟩ := List.mem_map.mp early
    exact (before text own).2 setting
  · rcases rowsOf_row file line member with alone | ended
    · rw [alone] at last
      exact List.mem_singleton.mp last ▸ sound setting
    · rw [ended] at last
      rcases List.mem_cons.mp last with same | blank
      · exact same ▸ sound setting
      · exact List.mem_singleton.mp blank ▸ client.sound_nil setting

theorem lastSetting_ending (sets : Bytes → Option Value) (blank : sets [] = none)
    (front : List Bytes) (plain : ∀ text ∈ front, newline ∉ text) (file line : Bytes)
    (member : line ∈ rowsOf file) :
    lastSetting sets (logicalLines (some (framed front ++ line))) =
      (sets line).or (lastSetting sets (front.map fun text => text ++ [newline])) := by
  have ending : lastSetting sets (rowsOf line) = sets line := by
    rcases rowsOf_row file line member with alone | ended
    · rw [alone, lastSetting_singleton]
    · rw [ended, lastSetting_cons, lastSetting_singleton, blank]
      rfl
  rw [logicalLines, Option.elim_some, rowsOf_framed front line plain, lastSetting_append, ending]

theorem complete_line (regular : client.Regular) (line val : Bytes) (fitting : Fitting line)
    (read : lineSetting line = some (client.key setting, val))
    (complete : (client.conversion setting).Complete val) :
    (∀ other, client.Sound other line) ∧
      client.gives setting line = (client.conversion setting).gives val := by
  constructor
  · intro other
    rw [Sound, if_pos fitting]
    intro found own
    have same := (client.mem_carried other _ found).mp own
    obtain ⟨named, rfl⟩ := Prod.mk.inj (Option.some.inj (read.symm.trans same))
    exact regular.keys named ▸ .inr complete
  · simp [gives, read]

/-- Before a line of its own value, or before one that changes it, only a sound line leaves
the code and the format with the same. -/
theorem sound_of_implements (regular : client.Regular) (file line : Bytes)
    (member : line ∈ rowsOf file) (fitting : Fitting line)
    (every : ∀ front, client.SoundLines front → client.Implements (some (framed front ++ line))) :
    client.Sound setting line := by
  rw [← client.fitting_same_iff setting regular file line member fitting]
  obtain ⟨text, val, value, plain, fits, read, complete, given, differs⟩ :=
    regular.changes setting
  obtain ⟨sound, gives⟩ := client.complete_line setting regular _ val fits read complete
  have own : text ++ [newline] ∈ rowsOf (text ++ [newline]) := by
    rw [rowsOf_line text [] plain]
    exact List.mem_cons_self
  have takes := client.sound_same setting regular _ _ own (sound setting)
  have alone := every [] nofun setting
  have after := every [text] (fun other inside => List.mem_singleton.mp inside ▸ ⟨plain, sound⟩)
    setting
  have free : ∀ other ∈ [text], newline ∉ other :=
    fun other inside => List.mem_singleton.mp inside ▸ plain
  rw [readConfig_value, formatted_value, lastSetting_ending _ rfl [] nofun file line member,
    lastSetting_ending _ rfl [] nofun file line member] at alone
  rw [readConfig_value, formatted_value, lastSetting_ending _ rfl [text] free file line member,
    lastSetting_ending _ rfl [text] free file line member, List.map_singleton,
    lastSetting_singleton, lastSetting_singleton, takes, gives, given] at after
  simp only [List.map_nil] at alone
  -- A line that only one of the two takes would show behind one of these files.
  cases first : client.takesLine setting line with
  | none =>
      cases second : client.gives setting line with
      | none => rfl
      | some other =>
          rw [first, second] at alone after
          exact absurd (after.trans alone.symm) differs
  | some other =>
      cases second : client.gives setting line with
      | none =>
          rw [first, second] at alone after
          exact absurd (after.symm.trans alone) differs
      | some another =>
          rw [first, second] at alone
          exact congrArg some alone

end Client

/-! ## The four clients -/

def clients : List Client := [bmp180, htu21d, gy63, dht11]

theorem bmp180_regular : bmp180.Regular where
  bounded setting := by
    cases setting <;> simp [bmp180, Bmp180Setting.conversion, Conversion.Bounded]
  keys first second same := by
    cases first <;> cases second <;> first | rfl | exact absurd same (by decide)
  changes setting := by
    cases setting with
    | i2cDev =>
        exact ⟨ascii "I2C_DEV=/", _, _, by decide, by decide, rfl, by decide, rfl, by decide⟩
    | addr =>
        exact ⟨ascii "I2C_ADDR=0", _, _, by decide, by decide, rfl, by decide, rfl, by decide⟩
    | oss =>
        exact ⟨ascii "OSS=0", _, _, by decide, by decide, rfl, by decide, rfl, by decide⟩

theorem htu21d_regular : htu21d.Regular where
  bounded setting := by
    cases setting <;> simp [htu21d, Htu21dSetting.conversion, Conversion.Bounded]
  keys first second same := by
    cases first <;> cases second <;> first | rfl | exact absurd same (by decide)
  changes setting := by
    cases setting with
    | i2cDev =>
        exact ⟨ascii "I2C_DEV=/", _, _, by decide, by decide, rfl, by decide, rfl, by decide⟩
    | addr =>
        exact ⟨ascii "I2C_ADDR=0", _, _, by decide, by decide, rfl, by decide, rfl, by decide⟩

theorem gy63_regular : gy63.Regular where
  bounded setting := by
    cases setting <;> simp [gy63, Gy63Setting.conversion, Conversion.Bounded]
  keys first second same := by
    cases first <;> cases second <;> first | rfl | exact absurd same (by decide)
  changes setting := by
    cases setting with
    | spiDev =>
        exact ⟨ascii "SPI_DEV=/", _, _, by decide, by decide, rfl, by decide, rfl, by decide⟩
    | interval =>
        exact ⟨ascii "SEND_INTERVAL=9", _, _, by decide, by decide, rfl, by decide, rfl, by decide⟩

theorem dht11_regular : dht11.Regular where
  bounded setting := by
    cases setting <;> simp [dht11, Dht11Setting.conversion, Conversion.Bounded]
  keys first second same := by
    cases first <;> cases second <;> first | rfl | exact absurd same (by decide)
  changes setting := by
    cases setting with
    | gpioPin =>
        exact ⟨ascii "GPIO_PIN=0", _, _, by decide, by decide, rfl, by decide, rfl, by decide⟩
    | interval =>
        exact ⟨ascii "SEND_INTERVAL=9", _, _, by decide, by decide, rfl, by decide, rfl, by decide⟩

theorem clients_regular : ∀ client ∈ clients, client.Regular := by
  intro client member
  simp only [clients, List.mem_cons, List.not_mem_nil, or_false] at member
  rcases member with rfl | rfl | rfl | rfl
  · exact bmp180_regular
  · exact htu21d_regular
  · exact gy63_regular
  · exact dht11_regular

/-- Each client implements the format on every file that is decided for it. Of a line that
fits the buffer no less can be asked: unless it is sound, it ends a file of otherwise sound
lines that the client gets wrong. -/
theorem read_config_implements_format (file : Option Bytes) :
    ∀ client ∈ clients, (client.Decided file → client.Implements file) ∧
      ∀ line ∈ logicalLines file, Fitting line →
        ((∀ setting, client.Sound setting line) ↔
          ∀ front, client.SoundLines front → client.Implements (some (framed front ++ line))) := by
  intro client member
  have regular := clients_regular client member
  refine ⟨client.implements_of_decided regular file, fun line inside fitting => ?_⟩
  cases file with
  | none => cases inside
  | some bytes =>
      constructor
      · intro sound front before
        exact client.implements_sound regular front bytes line inside before sound
      · intro every setting
        exact client.sound_of_implements setting regular bytes line inside fitting every

def modeFile : Bytes := ascii "OSS=9\nOSS=2\n# high\n"

theorem read_config_implements_format_modes :
    bmp180.Implements (some modeFile) ∧
      bmp180.Implements (some (framed [ascii "OSS=2"] ++ ascii "OSS=9\n")) := by
  have sound (setting : bmp180.Setting) :
      ∀ line ∈ rowsOf modeFile, bmp180.Sound setting line := by
    have checked := @of_decide_eq_true (∀ line ∈ rowsOf modeFile, bmp180.Sound setting line) _
    cases setting <;> exact checked (by decide +kernel)
  have lines := read_config_implements_format (some modeFile) bmp180 List.mem_cons_self
  constructor
  · exact lines.1 fun setting => ⟨[], rowsOf modeFile, rfl, sound setting, .inl rfl⟩
  · refine (lines.2 (ascii "OSS=9\n") (by decide +kernel) (by decide)).mp ?_ _ ?_
    · exact fun setting => sound setting _ (by decide +kernel)
    · intro text inside
      rw [List.mem_singleton.mp inside]
      exact ⟨by decide, fun setting => sound setting _ (by decide +kernel)⟩

/-- The end of a comment that does not fit the buffer is read as a line. -/
example : ¬ dht11.Implements
    (some (ascii "#" ++ List.replicate 126 32 ++ ascii "GPIO_PIN=17\n")) := by
  intro implements
  have pin := implements Dht11Setting.gpioPin
  revert pin
  decide +kernel

/-- A word where a number belongs is taken for 0, which the range check lets through. -/
theorem word_sets_zero : ¬ bmp180.Implements (some (ascii "OSS=high\n")) := by
  intro implements
  have oss := implements Bmp180Setting.oss
  revert oss
  decide

end SensorNode.ClientConfig
