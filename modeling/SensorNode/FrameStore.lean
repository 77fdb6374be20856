import SensorNode.DecimalText
import Mathlib.Data.List.Sort
import Mathlib.Data.List.Nodup

/-!
The offline frames of camera-stream: a directory of files named by the clock, and
the routines that list, trim, extend and drain it. A pass over the directory comes
in any order; what an allocation or a post comes to is given by file name, and each
file is met at most once in a routine.
-/

namespace SensorNode.FrameStore

open LineStream DecimalText

-- Irreducible, or unifying lengths counts down from a hundred.
@[irreducible] def maxOfflineFrames : Nat := 100

/-! ## File names -/

/-- A reading of `CLOCK_REALTIME`. -/
structure Timespec where
  sec : Int64
  nsec : Nat
  small : nsec < 10 ^ 9
  deriving DecidableEq

/-- `%09ld`. -/
def paddedNine (number : Nat) : Bytes :=
  List.replicate (9 - (decimal number).length) (digitByte 0) ++ decimal number

def frameName (reading : Timespec) : Bytes :=
  decimalInt reading.sec.toInt ++ paddedNine reading.nsec ++ ascii ".jpg"

def isJpg (name : Bytes) : Bool := (ascii ".jpg").isSuffixOf name

/-- `strcmp` on C strings, as far as `qsort` looks at it. -/
def strcmpLe : Bytes → Bytes → Bool
  | [], _ => true
  | _ :: _, [] => false
  | first :: left, second :: right =>
      if first = second then strcmpLe left right else decide (first < second)

/-- In file-name order. -/
def InOrder (left right : Bytes) : Prop := strcmpLe left right = true

instance : DecidableRel InOrder := fun left right =>
  inferInstanceAs (Decidable (strcmpLe left right = true))

theorem strcmpLe_total (left right : Bytes) :
    strcmpLe left right = true ∨ strcmpLe right left = true := by
  induction left generalizing right with
  | nil => exact .inl rfl
  | cons first left ih =>
      cases right with
      | nil => exact .inr rfl
      | cons second right =>
          simp only [strcmpLe]
          by_cases same : first = second
          · simpa [same] using ih right
          · simp only [if_neg same, if_neg (Ne.symm same), decide_eq_true_eq]
            rcases UInt8.lt_or_lt_of_ne same with before | after
            · exact .inl before
            · exact .inr after

theorem strcmpLe_trans (first second third : Bytes) (one : strcmpLe first second = true)
    (two : strcmpLe second third = true) : strcmpLe first third = true := by
  induction first generalizing second third with
  | nil => rfl
  | cons a first ih =>
      cases second with
      | nil => cases one
      | cons b second =>
          cases third with
          | nil => cases two
          | cons c third =>
              simp only [strcmpLe] at one two ⊢
              by_cases left : a = b
              · subst left
                by_cases right : a = c
                · simp only [right, if_true] at one two ⊢
                  exact ih second third one two
                · simpa [right] using two
              · simp only [if_neg left, decide_eq_true_eq] at one
                by_cases right : b = c
                · subst right
                  simp only [if_neg left, decide_eq_true_eq]
                  exact one
                · simp only [if_neg right, decide_eq_true_eq] at two
                  have before : a < c := UInt8.lt_trans one two
                  rw [if_neg (UInt8.ne_of_lt before)]
                  exact decide_eq_true before

theorem strcmpLe_antisymm (left right : Bytes) (one : strcmpLe left right = true)
    (two : strcmpLe right left = true) : left = right := by
  induction left generalizing right with
  | nil =>
      cases right with
      | nil => rfl
      | cons second right => cases two
  | cons first left ih =>
      cases right with
      | nil => cases one
      | cons second right =>
          simp only [strcmpLe] at one two
          by_cases same : first = second
          · simp only [same, if_true] at one two
            rw [same, ih right one two]
          · simp only [if_neg same, if_neg (Ne.symm same), decide_eq_true_eq] at one two
            exact absurd (UInt8.lt_trans one two) (UInt8.lt_irrefl first)

instance : Std.Total InOrder := ⟨strcmpLe_total⟩
instance : IsTrans Bytes InOrder := ⟨strcmpLe_trans⟩
instance : Std.Antisymm InOrder := ⟨strcmpLe_antisymm⟩

/-! ## The directory -/

/-- A file has the bytes of one frame, given by the frame's number. -/
structure File where
  name : Bytes
  frame : Nat
  deriving DecidableEq

abbrev Directory := List File

def names (dir : Directory) : List Bytes := dir.map File.name

/-- One pass: the names in the order of `readdir`, and those that `strdup` copies. -/
structure Scan where
  order : List Bytes
  copies : Bytes → Bool

def listOfflineFrames (scan : Scan) (max : Nat) : List Bytes :=
  (((scan.order.filter isJpg).filter scan.copies).take max).insertionSort InOrder

def unlinkAll (gone : List Bytes) (dir : Directory) : Directory :=
  dir.filter fun file => file.name ∉ gone

def offlineFramesTrim (scan : Scan) (dir : Directory) : Directory :=
  let listed := listOfflineFrames scan (maxOfflineFrames + 64)
  if listed.length ≤ maxOfflineFrames then dir
  else unlinkAll (listed.take (listed.length - maxOfflineFrames)) dir

/-- The files that a trim removes, the oldest of those it lists. -/
def doomed (scan : Scan) : List Bytes :=
  let listed := listOfflineFrames scan (maxOfflineFrames + 64)
  listed.take (listed.length - maxOfflineFrames)

/-- A file of the same name is overwritten. -/
def offlineFramesStore (reading : Timespec) (frame : Nat) (dir : Directory) : Directory :=
  unlinkAll [frameName reading] dir ++ [⟨frameName reading, frame⟩]

def openFrame (dir : Directory) (name : Bytes) : Option File :=
  dir.find? fun file => file.name = name

/-- `post_jpeg` of the contents of a file, and whether it returned 0. -/
structure Post where
  file : File
  ok : Bool
  deriving DecidableEq

/-- What a drain meets: the pass over the directory, where `malloc` succeeds, and how
each post ends. -/
structure DrainIo where
  scan : Scan
  buffers : Bytes → Bool
  answers : Bytes → Bool

/-- The loop, with room for `left` more successes. -/
def batchLoop (io : DrainIo) (dir : Directory) : Nat → List Bytes → List Post
  | 0, _ | _, [] => []
  | left + 1, name :: rest =>
      match openFrame dir name with
      | none => batchLoop io dir (left + 1) rest
      | some file =>
          if !io.buffers name then batchLoop io dir (left + 1) rest
          else if io.answers name then ⟨file, true⟩ :: batchLoop io dir left rest
          else [⟨file, false⟩]

def drainPosts (io : DrainIo) (maxBatch : Nat) (dir : Directory) : List Post :=
  batchLoop io dir maxBatch (listOfflineFrames io.scan (maxOfflineFrames + 64))

def delivered (posts : List Post) : List File := (posts.filter Post.ok).map Post.file

/-- A file is removed when its post has succeeded. -/
def offlineFramesDrainBatch (io : DrainIo) (maxBatch : Nat) (dir : Directory) : Directory :=
  unlinkAll (names (delivered (drainPosts io maxBatch dir))) dir

/-- The pass is over this directory. -/
def Scan.Of (scan : Scan) (dir : Directory) : Prop := scan.order.Perm (names dir)

instance (scan : Scan) (dir : Directory) : Decidable (scan.Of dir) :=
  inferInstanceAs (Decidable (List.Perm _ _))

/-! ## Names -/

theorem decimal_injective {first second : Nat} (same : decimal first = decimal second) :
    first = second := by
  rw [← decimal_value first, same, decimal_value]

theorem decimal_unsigned (number : Nat) (rest : Bytes) : decimal number ≠ ascii "-" ++ rest := by
  intro signed
  have digit := decimal_digits number 45 (by rw [signed]; exact List.mem_cons_self)
  exact absurd digit (by decide)

theorem decimalInt_injective {first second : Int} (same : decimalInt first = decimalInt second) :
    first = second := by
  unfold decimalInt at same
  split at same
  · next low =>
    split at same
    · have size := decimal_injective (List.append_cancel_left same)
      omega
    · exact absurd same.symm (decimal_unsigned _ _)
  · next high =>
    split at same
    · exact absurd same (decimal_unsigned _ _)
    · have size := decimal_injective same
      omega

theorem paddedNine_length (number : Nat) (small : number < 10 ^ 9) :
    (paddedNine number).length = 9 := by
  have short := decimal_length number 9 (by omega) small
  rw [paddedNine, List.length_append, List.length_replicate]
  omega

theorem digitsValue_padded (zeros : Nat) (text : Bytes) :
    digitsValue (List.replicate zeros (digitByte 0) ++ text) = digitsValue text := by
  induction zeros with
  | zero => rfl
  | succ zeros ih => exact ih

theorem paddedNine_injective {first second : Nat} (same : paddedNine first = paddedNine second) :
    first = second := by
  have value := congrArg digitsValue same
  rwa [paddedNine, paddedNine, digitsValue_padded, digitsValue_padded, decimal_value,
    decimal_value] at value

/-- Distinct readings of the clock give distinct files. -/
theorem frameName_injective {first second : Timespec}
    (same : frameName first = frameName second) : first = second := by
  have digits := List.append_cancel_right same
  obtain ⟨secs, nsecs⟩ := List.append_inj' digits (by
    rw [paddedNine_length _ first.small, paddedNine_length _ second.small])
  cases first
  cases second
  simp only [Timespec.mk.injEq]
  exact ⟨Int64.toInt_inj.mp (decimalInt_injective secs), paddedNine_injective nsecs⟩

theorem frameName_isJpg (reading : Timespec) : isJpg (frameName reading) = true :=
  List.isSuffixOf_iff_suffix.mpr (List.suffix_append _ _)

/-! ## Removing files -/

theorem mem_unlinkAll (gone : List Bytes) (dir : Directory) (file : File) :
    file ∈ unlinkAll gone dir ↔ file ∈ dir ∧ file.name ∉ gone := by
  simp [unlinkAll]

theorem unlinkAll_sublist (gone : List Bytes) (dir : Directory) :
    (unlinkAll gone dir).Sublist dir := List.filter_sublist

theorem unlinkAll_fresh (name : Bytes) (dir : Directory) (fresh : name ∉ names dir) :
    unlinkAll [name] dir = dir := by
  apply List.filter_eq_self.mpr
  intro file member
  simp only [List.mem_singleton, decide_eq_true_eq]
  rintro rfl
  exact fresh (List.mem_map_of_mem member)

theorem names_unlinkAll (gone : List Bytes) (dir : Directory) (distinct : (names dir).Nodup) :
    (names (unlinkAll gone dir)).Nodup :=
  distinct.sublist ((unlinkAll_sublist gone dir).map File.name)

theorem offlineFramesTrim_eq (scan : Scan) (dir : Directory) :
    offlineFramesTrim scan dir = unlinkAll (doomed scan) dir := by
  simp only [offlineFramesTrim, doomed]
  split
  · next few =>
    rw [Nat.sub_eq_zero_of_le few]
    simp [unlinkAll]
  · rfl

theorem offlineFramesTrim_sublist (scan : Scan) (dir : Directory) :
    (offlineFramesTrim scan dir).Sublist dir := by
  rw [offlineFramesTrim_eq]
  exact unlinkAll_sublist _ dir

/-! ## Listing -/

theorem listOfflineFrames_perm (scan : Scan) (max : Nat) :
    (listOfflineFrames scan max).Perm (((scan.order.filter isJpg).filter scan.copies).take max) :=
  List.perm_insertionSort _ _

theorem listOfflineFrames_sorted (scan : Scan) (max : Nat) :
    (listOfflineFrames scan max).Pairwise InOrder := List.pairwise_insertionSort _ _

theorem listed_mem (scan : Scan) (max : Nat) (dir : Directory) (of : scan.Of dir) (name : Bytes)
    (member : name ∈ listOfflineFrames scan max) : name ∈ names dir ∧ isJpg name = true := by
  have inside := List.mem_of_mem_take ((listOfflineFrames_perm scan max).mem_iff.mp member)
  simp only [List.mem_filter] at inside
  exact ⟨of.mem_iff.mp inside.1.1, inside.1.2⟩

theorem listed_nodup (scan : Scan) (max : Nat) (dir : Directory) (of : scan.Of dir)
    (distinct : (names dir).Nodup) : (listOfflineFrames scan max).Nodup := by
  apply (listOfflineFrames_perm scan max).nodup_iff.mpr
  apply List.Nodup.sublist (List.take_sublist _ _)
  exact ((of.nodup_iff.mpr distinct).filter _).filter _

theorem listed_length (scan : Scan) (max : Nat) (dir : Directory) (of : scan.Of dir) :
    (listOfflineFrames scan max).length ≤ ((names dir).filter isJpg).length := by
  rw [(listOfflineFrames_perm scan max).length_eq, ← (of.filter isJpg).length_eq]
  exact ((List.take_sublist _ _).trans List.filter_sublist).length_le

/-- The frames of a directory in file-name order. -/
def inOrder (dir : Directory) : List Bytes := ((names dir).filter isJpg).insertionSort InOrder

/-- A directory small enough is listed whole, but for names that `strdup` failed on. -/
theorem listed_complete (scan : Scan) (max : Nat) (dir : Directory) (of : scan.Of dir)
    (few : dir.length ≤ max) :
    listOfflineFrames scan max = (inOrder dir).filter scan.copies := by
  have all : ((scan.order.filter isJpg).filter scan.copies).length ≤ max := by
    calc ((scan.order.filter isJpg).filter scan.copies).length
        ≤ scan.order.length := (List.filter_sublist.trans List.filter_sublist).length_le
      _ = dir.length := by rw [of.length_eq, names, List.length_map]
      _ ≤ max := few
  have listed := listOfflineFrames_perm scan max
  rw [List.take_of_length_le all] at listed
  have ordered : (inOrder dir).Pairwise InOrder := List.pairwise_insertionSort _ _
  have same : (listOfflineFrames scan max).Perm ((inOrder dir).filter scan.copies) := by
    refine listed.trans ?_
    apply List.Perm.filter
    exact (of.filter isJpg).trans (List.perm_insertionSort _ _).symm
  exact same.eq_of_pairwise (fun a b _ _ => strcmpLe_antisymm a b)
    (listOfflineFrames_sorted scan max) (ordered.sublist List.filter_sublist)

/-! ## Draining -/

theorem openFrame_some (dir : Directory) (name : Bytes) (file : File)
    (opened : openFrame dir name = some file) : file ∈ dir ∧ file.name = name :=
  ⟨List.mem_of_find?_eq_some opened, by simpa using List.find?_some opened⟩

theorem openFrame_present (dir : Directory) (name : Bytes) (present : name ∈ names dir) :
    openFrame dir name ≠ none := by
  obtain ⟨file, member, rfl⟩ := List.mem_map.mp present
  intro missing
  simpa using List.find?_eq_none.mp missing file member

theorem batchLoop_files (io : DrainIo) (dir : Directory) (left : Nat) (listed : List Bytes) :
    ∀ post ∈ batchLoop io dir left listed, post.file ∈ dir := by
  fun_induction batchLoop io dir left listed with
  | case1 | case2 => nofun
  | case3 left name rest missing ih => exact ih
  | case4 left name rest file opened noBuffer ih => exact ih
  | case5 left name rest file opened buffer accepted ih =>
      exact List.forall_mem_cons.mpr ⟨(openFrame_some dir name file opened).1, ih⟩
  | case6 left name rest file opened buffer refused =>
      simpa using (openFrame_some dir name file opened).1

/-- Of the names listed, those with a buffer are posted in turn up to a refusal or the
end of the batch. -/
theorem batchLoop_names (io : DrainIo) (dir : Directory) (left : Nat) (listed : List Bytes)
    (present : ∀ name ∈ listed, name ∈ names dir) :
    (batchLoop io dir left listed).map (·.file.name) =
        (listed.filter io.buffers).take (batchLoop io dir left listed).length ∧
      (batchLoop io dir left listed).length ≤ left := by
  fun_induction batchLoop io dir left listed with
  | case1 | case2 => exact ⟨rfl, Nat.zero_le _⟩
  | case3 left name rest missing ih =>
      exact absurd missing (openFrame_present dir name (present name List.mem_cons_self))
  | case4 left name rest file opened noBuffer ih =>
      have skipped : io.buffers name = false := by simpa using noBuffer
      rw [List.filter_cons_of_neg (by simp [skipped])]
      exact ih fun other member => present other (List.mem_cons_of_mem name member)
  | case5 left name rest file opened buffer accepted ih =>
      have posted : io.buffers name = true := by simpa using buffer
      obtain ⟨order, few⟩ := ih fun other member => present other (List.mem_cons_of_mem name member)
      rw [List.filter_cons_of_pos posted, List.map_cons, List.length_cons, List.take_succ_cons,
        (openFrame_some dir name file opened).2, order]
      exact ⟨rfl, Nat.succ_le_succ few⟩
  | case6 left name rest file opened buffer refused =>
      have posted : io.buffers name = true := by simpa using buffer
      rw [List.filter_cons_of_pos posted]
      simp [(openFrame_some dir name file opened).2]

section
variable (io : DrainIo) (maxBatch : Nat) (dir : Directory) (of : io.scan.Of dir)
include of

theorem drainPosts_names :
    (drainPosts io maxBatch dir).map (·.file.name) =
        ((listOfflineFrames io.scan (maxOfflineFrames + 64)).filter io.buffers).take
          (drainPosts io maxBatch dir).length ∧
      (drainPosts io maxBatch dir).length ≤ maxBatch :=
  batchLoop_names io dir maxBatch _ fun name member => (listed_mem io.scan _ dir of name member).1

variable (distinct : (names dir).Nodup)
include distinct

theorem drainPosts_nodup : ((drainPosts io maxBatch dir).map (·.file.name)).Nodup := by
  rw [(drainPosts_names io maxBatch dir of).1]
  apply List.Nodup.sublist (List.take_sublist _ _)
  exact (listed_nodup io.scan _ dir of distinct).filter _

omit of in
theorem file_unique (first second : File) (one : first ∈ dir) (other : second ∈ dir)
    (same : first.name = second.name) : first = second :=
  List.inj_on_of_nodup_map distinct one other same

omit of distinct in
theorem delivered_present (file : File) (done : file ∈ delivered (drainPosts io maxBatch dir)) :
    file ∈ dir ∧ ⟨file, true⟩ ∈ drainPosts io maxBatch dir := by
  obtain ⟨post, member, rfl⟩ := List.mem_map.mp done
  obtain ⟨posted, ok⟩ := List.mem_filter.mp member
  refine ⟨batchLoop_files io dir _ _ post posted, ?_⟩
  cases post
  cases ok
  exact posted

theorem delivered_nodup : (delivered (drainPosts io maxBatch dir)).Nodup := by
  have posts := drainPosts_nodup io maxBatch dir of distinct
  apply List.Nodup.of_map File.name
  rw [delivered, List.map_map]
  exact posts.sublist (List.filter_sublist.map _)

omit of in
theorem mem_drained (file : File) :
    file ∈ offlineFramesDrainBatch io maxBatch dir ↔
      file ∈ dir ∧ file ∉ delivered (drainPosts io maxBatch dir) := by
  rw [offlineFramesDrainBatch, mem_unlinkAll]
  refine and_congr_right fun member => not_congr ⟨fun named => ?_, List.mem_map_of_mem⟩
  obtain ⟨gone, posted, same⟩ := List.mem_map.mp named
  have present := (delivered_present io maxBatch dir gone posted).1
  exact file_unique dir distinct gone file present member same ▸ posted

theorem drained_perm :
    (delivered (drainPosts io maxBatch dir) ++ offlineFramesDrainBatch io maxBatch dir).Perm
      dir := by
  have files : dir.Nodup := List.Nodup.of_map File.name distinct
  have rest : (offlineFramesDrainBatch io maxBatch dir).Nodup :=
    files.sublist (unlinkAll_sublist _ dir)
  refine (List.perm_ext_iff_of_nodup ?_ files).mpr fun file => ?_
  · apply (delivered_nodup io maxBatch dir of distinct).append rest
    intro file done stays
    exact ((mem_drained io maxBatch dir distinct file).mp stays).2 done
  · rw [List.mem_append, mem_drained io maxBatch dir distinct]
    constructor
    · rintro (done | stays)
      · exact (delivered_present io maxBatch dir file done).1
      · exact stays.1
    · intro present
      by_cases done : file ∈ delivered (drainPosts io maxBatch dir)
      · exact .inl done
      · exact .inr ⟨present, done⟩

end

/-- A drain posts the oldest files for which there is memory, in file-name order and no
more than the batch, and removes those whose post has succeeded. -/
structure DrainsInOrder (io : DrainIo) (maxBatch : Nat) (dir : Directory) : Prop where
  ordered : (drainPosts io maxBatch dir).map (·.file.name) =
    (((inOrder dir).filter io.scan.copies).filter io.buffers).take
      (drainPosts io maxBatch dir).length
  few : (drainPosts io maxBatch dir).length ≤ maxBatch
  present : ∀ post ∈ drainPosts io maxBatch dir, post.file ∈ dir
  removed : ∀ file, file ∈ offlineFramesDrainBatch io maxBatch dir ↔
    file ∈ dir ∧ ⟨file, true⟩ ∉ drainPosts io maxBatch dir

theorem drains_in_order (io : DrainIo) (maxBatch : Nat) (dir : Directory)
    (of : io.scan.Of dir) (distinct : (names dir).Nodup)
    (few : dir.length ≤ maxOfflineFrames + 64) : DrainsInOrder io maxBatch dir := by
  obtain ⟨ordered, batch⟩ := drainPosts_names io maxBatch dir of
  rw [listed_complete io.scan _ dir of few] at ordered
  refine ⟨ordered, batch, batchLoop_files io dir _ _, fun file => ?_⟩
  rw [mem_drained io maxBatch dir distinct]
  refine and_congr_right fun _ => not_congr ⟨fun done => ?_, fun posted => ?_⟩
  · exact (delivered_present io maxBatch dir file done).2
  · exact List.mem_map.mpr ⟨⟨file, true⟩, List.mem_filter.mpr ⟨posted, rfl⟩, rfl⟩

end SensorNode.FrameStore
