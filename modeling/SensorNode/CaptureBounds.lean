import SensorNode.CaptureLoop
import Mathlib.Tactic.Ring

/-!
Which bytes of a mapped buffer the conversion reads. `yuyv_to_jpeg` computes its
source addresses from the configured size, the buffers are as long as the format
that the driver chose; the capture loop is followed with both.
-/

namespace SensorNode.CaptureBounds

open StepSystem CaptureLoop

/-- `cfg.width` and `cfg.height`, as `atoi` leaves them. -/
structure FrameSize where
  width : Int32
  height : Int32
  deriving DecidableEq

/-- The answer of VIDIOC_S_FMT. -/
structure Format where
  width : Nat
  height : Nat
  bytesPerLine : Nat
  deriving DecidableEq

def Format.sizeImage (format : Format) : Nat := format.bytesPerLine * format.height

/-! ## The conversion -/

/-- The four bytes that `src` points at, for each pair of pixels of a row. -/
def rowReads (src width : Nat) : List Nat :=
  (List.range ((width + 1) / 2)).flatMap fun pair => (List.range 4).map (src + 4 * pair + ·)

def frameReads (width height : Nat) : List Nat :=
  (List.range height).flatMap fun scanline => rowReads (scanline * width * 2) width

def jdimension (side : Int32) : Nat := side.toUInt32.toNat

section
-- Whether `jpeg_start_compress` returns: for sizes it rejects it ends the process.
variable (starts : Nat → Nat → Bool)

/-- The indexes that `yuyv_to_jpeg` reads. The bound of its inner loop is the signed
width, the number of its rows is `image_height`. -/
def yuyvToJpeg (size : FrameSize) (allocated : Bool) : List Nat :=
  if starts (jdimension size.width) (jdimension size.height) && allocated then
    frameReads size.width.toInt.toNat (jdimension size.height)
  else []

def extentOf (width height : Nat) : Nat :=
  if width = 0 ∨ height = 0 then 0 else (height - 1) * width * 2 + 4 * ((width + 1) / 2)

def extent (size : FrameSize) : Nat :=
  if starts (jdimension size.width) (jdimension size.height) then
    extentOf size.width.toInt.toNat (jdimension size.height)
  else 0

end

theorem mem_rowReads (src width byte : Nat) :
    byte ∈ rowReads src width ↔
      ∃ pair < (width + 1) / 2, ∃ part < 4, byte = src + 4 * pair + part := by
  simp only [rowReads, List.mem_flatMap, List.mem_map, List.mem_range]
  constructor
  · rintro ⟨pair, inside, part, few, rfl⟩
    exact ⟨pair, inside, part, few, rfl⟩
  · rintro ⟨pair, inside, part, few, rfl⟩
    exact ⟨pair, inside, part, few, rfl⟩

theorem frameReads_lt (width height byte : Nat) (read : byte ∈ frameReads width height) :
    byte < extentOf width height := by
  simp only [frameReads, List.mem_flatMap, List.mem_range] at read
  obtain ⟨scanline, row, read⟩ := read
  obtain ⟨pair, inside, part, few, rfl⟩ := (mem_rowReads _ _ _).mp read
  have above : scanline * width ≤ (height - 1) * width :=
    Nat.mul_le_mul_right width (by omega)
  rw [extentOf, if_neg (by omega)]
  omega

theorem extentOf_read (width height : Nat) (some' : 0 < extentOf width height) :
    extentOf width height - 1 ∈ frameReads width height := by
  have sides : ¬ (width = 0 ∨ height = 0) := by
    intro none
    rw [extentOf, if_pos none] at some'
    exact absurd some' (lt_irrefl 0)
  rw [extentOf, if_neg sides]
  simp only [frameReads, List.mem_flatMap, List.mem_range]
  refine ⟨height - 1, by omega, (mem_rowReads _ _ _).mpr
    ⟨(width + 1) / 2 - 1, by omega, 3, by norm_num, by omega⟩⟩

theorem frameReads_iff (width height length : Nat) :
    (∀ byte ∈ frameReads width height, byte < length) ↔ extentOf width height ≤ length := by
  constructor
  · intro inside
    by_cases empty : extentOf width height = 0
    · omega
    · have last := inside _ (extentOf_read width height (by omega))
      omega
  · intro long byte read
    exact (frameReads_lt width height byte read).trans_le long

theorem yuyvToJpeg_lt (starts : Nat → Nat → Bool) (size : FrameSize) (allocated : Bool)
    (byte : Nat) (read : byte ∈ yuyvToJpeg starts size allocated) : byte < extent starts size := by
  unfold yuyvToJpeg at read
  split at read
  · next both =>
    rw [Bool.and_eq_true] at both
    rw [extent, if_pos both.1]
    exact frameReads_lt _ _ _ read
  · cases read

/-! ## The loop -/

/-- `lengths` has `bufs[i].length` for each mapped buffer. -/
structure State where
  loop : CaptureLoop.State
  cfg : FrameSize
  lengths : List Nat

def initial : State := ⟨CaptureLoop.initial, ⟨0, 0⟩, []⟩

def Starts (state : State) : Prop := state = initial

/-- `loaded` is what `load_config` reads where it is called before the open. -/
inductive Label where
  | opening (driver : Driver) (loaded : FrameSize) (format : Format)
  | test (running reload : Bool)
  | select (outcome : Selected)
  | dequeue (outcome : Dequeued)

def configured (state : State) (loaded : FrameSize) : FrameSize :=
  match state.loop.phase with
  | .starting | .reloading => loaded
  | _ => state.cfg

def mapped (state : State) (format : Format) : Option Camera → List Nat
  | none => state.lengths
  | some camera => List.replicate camera.nBufs format.sizeImage

def step (state : State) : Label → Option State
  | .opening driver loaded format =>
      (CaptureLoop.step state.loop (.opening driver)).map fun next =>
        { loop := next
          cfg := configured state loaded
          lengths := mapped state format (openCamera driver state.loop.ledger).1 }
  | .test running reload => (CaptureLoop.step state.loop (.test running reload)).map fun next =>
      { state with loop := next }
  | .select outcome => (CaptureLoop.step state.loop (.select outcome)).map fun next =>
      { state with loop := next }
  | .dequeue outcome => (CaptureLoop.step state.loop (.dequeue outcome)).map fun next =>
      { state with loop := next }

section
variable (starts : Nat → Nat → Bool)

def InBounds (state : State) : Prop :=
  state.loop.phase = .dequeuing → ∀ length ∈ state.lengths, ∀ allocated,
    ∀ byte ∈ yuyvToJpeg starts state.cfg allocated, byte < length

/-- The format that the driver chose is large enough for the configured size. -/
def Negotiated (state : State) : Label → Prop
  | .opening driver loaded format =>
      (openCamera driver state.loop.ledger).1.isSome = true →
        extent starts (configured state loaded) ≤ format.sizeImage
  | _ => True

instance (state : State) (label : Label) : Decidable (Negotiated starts state label) := by
  unfold Negotiated
  split <;> infer_instance

structure Covered (state : State) : Prop where
  opened : state.loop.phase = .dequeuing → state.loop.camFd.isSome = true
  long : Streaming state.loop → ∀ length ∈ state.lengths, extent starts state.cfg ≤ length

end

theorem covered_loop (starts : Nat → Nat → Bool) (state : State) (covered : Covered starts state)
    (label : CaptureLoop.Label) (other : ∀ driver, label ≠ .opening driver)
    (loop : CaptureLoop.State) (moved : CaptureLoop.step state.loop label = some loop) :
    Covered starts { state with loop := loop } := by
  refine ⟨dequeuing_open state.loop label loop moved, fun streaming => ?_⟩
  exact covered.long (streaming_before state.loop label loop moved other streaming)

theorem covered_step (starts : Nat → Nat → Bool) (state : State) (label : Label) (next : State)
    (covered : Covered starts state) (negotiated : Negotiated starts state label)
    (moved : step state label = some next) : Covered starts next := by
  cases label with
  | opening driver loaded format =>
      simp only [step, Option.map_eq_some_iff] at moved
      obtain ⟨loop, went, rfl⟩ := moved
      refine ⟨dequeuing_open state.loop _ loop went, fun streaming length member => ?_⟩
      have opened := streaming_opened state.loop driver loop went streaming
      have enough := negotiated opened
      obtain ⟨camera, result⟩ := Option.isSome_iff_exists.mp opened
      simp only [result, mapped] at member
      rw [List.eq_of_mem_replicate member]
      exact enough
  | test running reload =>
      simp only [step, Option.map_eq_some_iff] at moved
      obtain ⟨loop, went, rfl⟩ := moved
      exact covered_loop starts state covered (.test running reload) nofun loop went
  | select outcome =>
      simp only [step, Option.map_eq_some_iff] at moved
      obtain ⟨loop, went, rfl⟩ := moved
      exact covered_loop starts state covered (.select outcome) nofun loop went
  | dequeue outcome =>
      simp only [step, Option.map_eq_some_iff] at moved
      obtain ⟨loop, went, rfl⟩ := moved
      exact covered_loop starts state covered (.dequeue outcome) nofun loop went

/-- In a run whose opens were all answered with a large enough format, no conversion
reads past its buffer. -/
theorem capture_in_bounds (starts : Nat → Nat → Bool) (state : State)
    (reached : ReachableWithin step Starts (Negotiated starts) state) : InBounds starts state := by
  have covered : Covered starts state := by
    apply reachable_within_invariant step Starts (Covered starts) (Negotiated starts) _
      (covered_step starts) state reached
    rintro _ rfl
    exact ⟨nofun, fun streaming => nomatch streaming.2⟩
  intro dequeuing length member allocated byte read
  have streaming : Streaming state.loop := ⟨covered.opened dequeuing, by rw [dequeuing]; rfl⟩
  exact (yuyvToJpeg_lt starts state.cfg allocated byte read).trans_le
    (covered.long streaming length member)

def compresses (width height : Nat) : Bool :=
  decide (0 < width ∧ width ≤ 65500 ∧ 0 < height ∧ height ≤ 65500)

def granting : Driver :=
  ⟨true, true, some 4, true, fun _ => true, fun _ => true, fun _ => true, true⟩

def started (format : Format) : List Label :=
  [.opening granting ⟨640, 480⟩ format, .test true false, .select .ready]

/-- The driver accepts the requested size; a stall and a reload follow. -/
def negotiated : List Label :=
  started ⟨640, 480, 1280⟩ ++ [.dequeue .failed, .opening granting ⟨0, 0⟩ ⟨640, 480, 1280⟩,
    .test true true, .opening granting ⟨320, 240⟩ ⟨320, 240, 640⟩, .select .ready]

theorem capture_in_bounds_negotiated :
    ∃ state, exec step initial negotiated = some state ∧ state.loop.phase = .dequeuing ∧
      state.lengths = List.replicate 4 153600 ∧ InBounds compresses state :=
  ⟨_, rfl, rfl, rfl, capture_in_bounds compresses _ ⟨initial, negotiated, rfl, by decide, rfl⟩⟩

/-- The driver answers a smaller format, which nobody looks at. -/
theorem capture_out_of_bounds :
    ¬ ∀ (starts : Nat → Nat → Bool) state, Reachable step Starts state → InBounds starts state := by
  intro always
  have inside := always compresses _ ⟨initial, started ⟨320, 240, 640⟩, rfl, rfl⟩ rfl 153600
    List.mem_cons_self true
  have width : (640 : Int32).toInt.toNat = 640 := by decide
  have height : jdimension 480 = 480 := by decide
  have reads : yuyvToJpeg compresses ⟨640, 480⟩ true = frameReads 640 480 := by
    rw [yuyvToJpeg, if_pos (by decide), width, height]
  have short : extentOf 640 480 ≤ 153600 := (frameReads_iff 640 480 153600).mp (reads ▸ inside)
  exact absurd short (by decide)

end SensorNode.CaptureBounds
