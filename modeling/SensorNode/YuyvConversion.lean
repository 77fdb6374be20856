import SensorNode.CaptureBounds

/-!
What `yuyv_to_jpeg` computes: the bytes it reads and writes and the scanlines it
hands to libjpeg. The inner loop takes two pixels at a time, so for an odd width the
last round of a line writes a pixel more than the row has room for.
-/

namespace SensorNode.YuyvConversion

open CaptureBounds

/-! ## The code -/

abbrev Memory := Nat → UInt8

def clamp (value : Int) : UInt8 :=
  if value < 0 then 0 else if 255 < value then 255 else UInt8.ofNat value.toNat

def rgb (luma blue red : UInt8) : List UInt8 :=
  let y : Int := luma.toNat
  let u : Int := blue.toNat - 128
  let v : Int := red.toNat - 128
  [clamp (y + (359 * v).tdiv 256), clamp (y - (88 * u).tdiv 256 - (183 * v).tdiv 256),
    clamp (y + (454 * u).tdiv 256)]

/-- The indexes accessed so far, and what the row buffer holds. -/
structure RowState where
  reads : List Nat
  writes : List Nat
  row : Memory

def store (memory : Memory) (dst : Nat) (bytes : List UInt8) : Memory := fun index =>
  if dst ≤ index ∧ index < dst + bytes.length then bytes.getD (index - dst) 0 else memory index

def convertPair (yuyv : Memory) (src dst : Nat) (state : RowState) : RowState :=
  let y0 := yuyv src
  let u := yuyv (src + 1)
  let y1 := yuyv (src + 2)
  let v := yuyv (src + 3)
  { reads := state.reads ++ (List.range 4).map (src + ·)
    writes := state.writes ++ (List.range 6).map (dst + ·)
    row := store (store state.row dst (rgb y0 u v)) (dst + 3) (rgb y1 u v) }

def convertRow (yuyv : Memory) (src : Nat) (state : RowState) : (pairs : Nat) → RowState
  | 0 => state
  | pairs + 1 => convertPair yuyv (src + 4 * pairs) (6 * pairs) (convertRow yuyv src state pairs)

structure Conversion where
  state : RowState
  scanlines : List (List UInt8)

/-- The first `lines` rounds of the outer loop; libjpeg takes three bytes a pixel. -/
def convertLines (yuyv : Memory) (width : Nat) (state : RowState) : (lines : Nat) → Conversion
  | 0 => ⟨state, []⟩
  | lines + 1 =>
      let done := convertLines yuyv width state lines
      let line := convertRow yuyv (lines * width * 2) done.state ((width + 1) / 2)
      ⟨line, done.scanlines ++ [(List.range (width * 3)).map line.row]⟩

section
-- Whether `jpeg_start_compress` returns: for sizes it rejects it ends the process.
variable (starts : Nat → Nat → Bool)

/-- `fresh` is what `malloc` leaves in the row buffer. -/
def yuyvToJpeg (size : FrameSize) (allocated : Bool) (yuyv fresh : Memory) : Conversion :=
  if starts (jdimension size.width) (jdimension size.height) && allocated then
    convertLines yuyv size.width.toInt.toNat ⟨[], [], fresh⟩ (jdimension size.height)
  else ⟨⟨[], [], fresh⟩, []⟩

end

/-! ## What is accessed -/

section
variable (yuyv : Memory) (width src : Nat) (state : RowState)

theorem convertRow_reads (pairs : Nat) : (convertRow yuyv src state pairs).reads =
    state.reads ++ (List.range pairs).flatMap fun pair =>
      (List.range 4).map (src + 4 * pair + ·) := by
  induction pairs with
  | zero => simp [convertRow]
  | succ pairs ih =>
      rw [List.range_succ (n := pairs), List.flatMap_append, List.flatMap_singleton,
        ← List.append_assoc, ← ih]
      rfl

theorem convertLines_reads (lines : Nat) :
    (convertLines yuyv width state lines).state.reads = state.reads ++ frameReads width lines := by
  induction lines with
  | zero => simp [convertLines, frameReads]
  | succ lines ih =>
      rw [frameReads, List.range_succ, List.flatMap_append, List.flatMap_singleton,
        ← List.append_assoc]
      show (convertRow yuyv (lines * width * 2) _ _).reads = _
      rw [convertRow_reads, ih]
      rfl

theorem convertRow_writes (pairs index : Nat) : index ∈ (convertRow yuyv src state pairs).writes ↔
    index ∈ state.writes ∨ index < 6 * pairs := by
  induction pairs with
  | zero => simp [convertRow]
  | succ pairs ih =>
      have round : index ∈ (List.range 6).map (6 * pairs + ·) ↔
          6 * pairs ≤ index ∧ index < 6 * (pairs + 1) := by
        rw [List.mem_map]
        constructor
        · rintro ⟨part, few, rfl⟩
          have part' := List.mem_range.mp few
          omega
        · intro inside
          exact ⟨index - 6 * pairs, List.mem_range.mpr (by omega), by omega⟩
      show index ∈ (convertRow yuyv src state pairs).writes ++
        (List.range 6).map (6 * pairs + ·) ↔ _
      rw [List.mem_append, ih, round, or_assoc]
      exact or_congr_right (by omega)

theorem convertLines_writes (lines index : Nat) :
    index ∈ (convertLines yuyv width state lines).state.writes ↔
      index ∈ state.writes ∨ (0 < lines ∧ index < 6 * ((width + 1) / 2)) := by
  induction lines with
  | zero => simp [convertLines]
  | succ lines ih =>
      show index ∈ (convertRow yuyv (lines * width * 2) _ _).writes ↔ _
      rw [convertRow_writes, ih, or_assoc]
      exact or_congr_right (by omega)

/-- The reads are those that the bounds of the capture loop speak of. -/
theorem yuyvToJpeg_reads (starts : Nat → Nat → Bool) (size : FrameSize) (allocated : Bool)
    (fresh : Memory) : (yuyvToJpeg starts size allocated yuyv fresh).state.reads =
      CaptureBounds.yuyvToJpeg starts size allocated := by
  unfold yuyvToJpeg CaptureBounds.yuyvToJpeg
  split
  · rw [convertLines_reads]
    rfl
  · rfl

end

/-! ## What is converted -/

/-- Pixel `x` of line `y`: its own luma, and the colours of the pair it is in. -/
def pixel (yuyv : Memory) (width y x : Nat) : List UInt8 :=
  rgb (yuyv (2 * (y * width + x))) (yuyv (2 * (y * width + 2 * (x / 2)) + 1))
    (yuyv (2 * (y * width + 2 * (x / 2)) + 3))

def expectedLine (yuyv : Memory) (width y : Nat) : List UInt8 :=
  (List.range width).flatMap (pixel yuyv width y)

section
variable (memory : Memory) (dst : Nat) (bytes : List UInt8) (index : Nat)

theorem store_inside (first : dst ≤ index) (last : index < dst + bytes.length) :
    store memory dst bytes index = bytes.getD (index - dst) 0 :=
  if_pos ⟨first, last⟩

theorem store_outside (apart : index < dst ∨ dst + bytes.length ≤ index) :
    store memory dst bytes index = memory index :=
  if_neg (by omega)

end

theorem rgb_length (luma blue red : UInt8) : (rgb luma blue red).length = 3 := rfl

section
variable (yuyv : Memory) (width src : Nat) (state : RowState)

theorem convertRow_row (pairs index : Nat) (done : index < 6 * pairs) :
    (convertRow yuyv src state pairs).row index =
      (rgb (yuyv (src + 2 * (index / 3))) (yuyv (src + 4 * (index / 3 / 2) + 1))
        (yuyv (src + 4 * (index / 3 / 2) + 3))).getD (index % 3) 0 := by
  induction pairs with
  | zero => omega
  | succ pairs ih =>
      simp only [convertRow, convertPair]
      by_cases earlier : index < 6 * pairs
      · rw [store_outside _ _ _ _ (.inl (by omega)), store_outside _ _ _ _ (.inl earlier)]
        exact ih earlier
      · have pair : index / 3 / 2 = pairs := by omega
        rw [pair]
        by_cases left : index < 6 * pairs + 3
        · have column : src + 2 * (index / 3) = src + 4 * pairs := by omega
          have part : index % 3 = index - 6 * pairs := by omega
          rw [store_outside _ _ _ _ (.inl left),
            store_inside _ _ _ _ (by omega) (by rw [rgb_length]; omega), column, part]
        · have column : src + 2 * (index / 3) = src + 4 * pairs + 2 := by omega
          have part : index % 3 = index - (6 * pairs + 3) := by omega
          rw [store_inside _ _ _ _ (by omega) (by rw [rgb_length]; omega), column, part]

theorem triples (f : Nat → List UInt8) (three : ∀ x, (f x).length = 3) (count : Nat) :
    (List.range (count * 3)).map (fun index => (f (index / 3)).getD (index % 3) 0) =
      (List.range count).flatMap f := by
  induction count with
  | zero => rfl
  | succ count ih =>
      obtain ⟨a, b, c, shape⟩ := List.length_eq_three.mp (three count)
      have first : count * 3 / 3 = count ∧ count * 3 % 3 = 0 := by omega
      have second : (count * 3 + 1) / 3 = count ∧ (count * 3 + 1) % 3 = 1 := by omega
      have third : (count * 3 + 2) / 3 = count ∧ (count * 3 + 2) % 3 = 2 := by omega
      rw [Nat.succ_mul, List.range_succ, List.range_succ, List.range_succ]
      simp only [List.map_append, ih, List.map_cons, List.map_nil, first, second, third, shape,
        List.range_succ (n := count), List.flatMap_append, List.flatMap_singleton]
      simp

theorem convertRow_line (y : Nat) :
    (List.range (width * 3)).map (convertRow yuyv (y * width * 2) state ((width + 1) / 2)).row =
      expectedLine yuyv width y := by
  have lengths (x : Nat) : (pixel yuyv width y x).length = 3 := rfl
  rw [expectedLine, ← triples _ lengths]
  apply List.map_congr_left
  intro index member
  have inside := List.mem_range.mp member
  have luma : y * width * 2 + 2 * (index / 3) = 2 * (y * width + index / 3) := by omega
  have colour : y * width * 2 + 4 * (index / 3 / 2) = 2 * (y * width + 2 * (index / 3 / 2)) := by
    omega
  rw [convertRow_row _ _ _ _ _ (by omega), luma, colour, pixel]

theorem convertLines_scanlines (lines : Nat) : (convertLines yuyv width state lines).scanlines =
    (List.range lines).map (expectedLine yuyv width) := by
  induction lines with
  | zero => rfl
  | succ lines ih =>
      rw [List.range_succ, List.map_append, ← ih]
      show _ ++ [(List.range (width * 3)).map (convertRow yuyv _ _ _).row] = _
      rw [convertRow_line]
      rfl

end

/-! ## The whole conversion -/

theorem jdimension_positive (side : Int32) (positive : 1 ≤ side) :
    jdimension side = side.toInt.toNat ∧ 0 < side.toInt.toNat := by
  have above : 1 ≤ side.toInt := Int32.le_iff_toInt_le.mp positive
  have same : jdimension side = side.toBitVec.toNat := rfl
  have value : side.toInt = side.toBitVec.toInt := rfl
  have cases' := BitVec.toInt_eq_toNat_cond side.toBitVec
  have word := side.toBitVec.isLt
  rw [same]
  split at cases' <;> omega

section
variable (starts : Nat → Nat → Bool) (size : FrameSize) (allocated : Bool) (yuyv fresh : Memory)

/-- A conversion that libjpeg takes on and that gets its row buffer. -/
def Runs : Prop :=
  starts (jdimension size.width) (jdimension size.height) = true ∧ allocated = true

/-- Reads inside the frame, writes inside the row, and every line as it should be. -/
structure Sound : Prop where
  reads : ∀ index ∈ (yuyvToJpeg starts size allocated yuyv fresh).state.reads,
    index < 2 * size.width.toInt.toNat * size.height.toInt.toNat
  writes : ∀ index ∈ (yuyvToJpeg starts size allocated yuyv fresh).state.writes,
    index < size.width.toInt.toNat * 3
  scanlines : Runs starts size allocated →
    (yuyvToJpeg starts size allocated yuyv fresh).scanlines =
      (List.range size.height.toInt.toNat).map (expectedLine yuyv size.width.toInt.toNat)

theorem yuyvToJpeg_runs (runs : Runs starts size allocated) :
    yuyvToJpeg starts size allocated yuyv fresh =
      convertLines yuyv size.width.toInt.toNat ⟨[], [], fresh⟩ (jdimension size.height) :=
  if_pos (Bool.and_eq_true_iff.mpr runs)

theorem yuyvToJpeg_idle (idle : ¬ Runs starts size allocated) :
    yuyvToJpeg starts size allocated yuyv fresh = ⟨⟨[], [], fresh⟩, []⟩ :=
  if_neg fun both => idle (Bool.and_eq_true_iff.mp both)

/-- A conversion that runs is sound exactly for an even width. -/
theorem yuyvToJpeg_sound_iff (wide : 1 ≤ size.width) (tall : 1 ≤ size.height) :
    Sound starts size allocated yuyv fresh ↔
      (Runs starts size allocated → size.width.toInt.toNat % 2 = 0) := by
  obtain ⟨_, columns⟩ := jdimension_positive size.width wide
  obtain ⟨lines, rows⟩ := jdimension_positive size.height tall
  constructor
  · intro sound runs
    by_contra odd
    -- The last pair of an odd row has its second pixel behind the row.
    have last : size.width.toInt.toNat * 3 ∈
        (yuyvToJpeg starts size allocated yuyv fresh).state.writes := by
      rw [yuyvToJpeg_runs _ _ _ _ _ runs, convertLines_writes, lines]
      exact .inr ⟨rows, by omega⟩
    exact absurd (sound.writes _ last) (lt_irrefl _)
  · intro even
    by_cases runs : Runs starts size allocated
    · have half := even runs
      constructor
      · intro index read
        rw [yuyvToJpeg_reads] at read
        have bound := yuyvToJpeg_lt starts size allocated index read
        -- The last row ends where the frame ends.
        have area : (size.height.toInt.toNat - 1) * size.width.toInt.toNat +
            size.width.toInt.toNat = size.height.toInt.toNat * size.width.toInt.toNat := by
          rw [← Nat.succ_mul, Nat.succ_eq_add_one, Nat.sub_add_cancel rows]
        rw [extent, if_pos runs.1, lines, extentOf, if_neg (by omega)] at bound
        have frame : 2 * size.width.toInt.toNat * size.height.toInt.toNat =
            size.height.toInt.toNat * size.width.toInt.toNat * 2 := by ring
        rw [frame]
        omega
      · intro index written
        rw [yuyvToJpeg_runs _ _ _ _ _ runs, convertLines_writes] at written
        rcases written with before | inside
        · cases before
        · omega
      · intro _
        rw [yuyvToJpeg_runs _ _ _ _ _ runs, convertLines_scanlines, lines]
    · have nothing := yuyvToJpeg_idle starts size allocated yuyv fresh runs
      constructor
      · intro index read
        rw [nothing] at read
        cases read
      · intro index written
        rw [nothing] at written
        cases written
      · intro runs'
        exact absurd runs' runs

end

def accepts (width height : Nat) : Bool := decide (width ≤ 65500 ∧ height ≤ 65500)

theorem yuyvToJpeg_sound_iff_vga : Sound accepts ⟨640, 480⟩ true (fun _ => 16) (fun _ => 0) := by
  refine (yuyvToJpeg_sound_iff accepts ⟨640, 480⟩ true _ _ (by decide) (by decide)).mpr ?_
  intro _
  decide

/-- A width of 641 writes the byte after the row. -/
theorem yuyvToJpeg_odd : ¬ ∀ (starts : Nat → Nat → Bool) (size : FrameSize) (allocated : Bool)
    (yuyv fresh : Memory), 1 ≤ size.width → 1 ≤ size.height →
    Sound starts size allocated yuyv fresh := by
  intro always
  have sound := always accepts ⟨641, 480⟩ true (fun _ => 0) (fun _ => 0) (by decide) (by decide)
  have runs : Runs accepts ⟨641, 480⟩ true := ⟨by decide, rfl⟩
  have last : 641 * 3 ∈
      (yuyvToJpeg accepts ⟨641, 480⟩ true (fun _ => 0) fun _ => 0).state.writes := by
    rw [yuyvToJpeg_runs _ _ _ _ _ runs, convertLines_writes]
    exact .inr ⟨by decide, by decide⟩
  exact absurd (sound.writes _ last) (by decide)

end SensorNode.YuyvConversion
