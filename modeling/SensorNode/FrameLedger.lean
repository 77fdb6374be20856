import SensorNode.FrameStore
import SensorNode.StepSystem

/-!
Where every frame is that `push_thread` has taken. Frames are numbered in the order
in which they are taken; a run records each post and what becomes of each frame. The
numbers in the four places are always those of all frames taken, each once.
-/

namespace SensorNode.FrameLedger

open StepSystem LineStream FrameStore

/-- `posts` has each `post_jpeg` call with its outcome; `readings` has the clock
readings that files have been named by. -/
structure Spool where
  dir : Directory
  posts : List (Nat × Bool)
  evicted : List Nat
  dropped : List Nat
  taken : Nat
  readings : List Timespec
  deriving DecidableEq

/-- What one pass of the loop meets once it has a frame. Without a curl handle
nothing is posted. -/
structure Pass where
  copied : Bool
  live : Option Bool
  diskOk : Bool
  drain : DrainIo
  trim : Scan
  reading : Timespec

def afterDrain (spool : Spool) (io : DrainIo) : Spool :=
  { spool with
    dir := offlineFramesDrainBatch io 5 spool.dir
    posts := spool.posts ++
      (drainPosts io 5 spool.dir).map fun post => (post.file.frame, post.ok) }

def afterStore (spool : Spool) (scan : Scan) (reading : Timespec) (frame : Nat) : Spool :=
  { spool with
    dir := offlineFramesStore reading frame (offlineFramesTrim scan spool.dir)
    evicted := spool.evicted ++
      (spool.dir.filter fun file => file.name ∈ doomed scan).map File.frame
    readings := spool.readings ++ [reading] }

def drop (spool : Spool) (frame : Nat) : Spool :=
  { spool with dropped := spool.dropped ++ [frame] }

/-- One pass of the loop of `push_thread`, from one loop head to the next. -/
def pushThread (spool : Spool) (pass : Pass) : Option Spool :=
  let frame := spool.taken
  let holding := { spool with taken := frame + 1 }
  if !pass.copied then some (drop holding frame)
  else
    let posted := { holding with
      posts := spool.posts ++ (pass.live.map fun ok => (frame, ok)).toList }
    if pass.live = some true then
      if pass.drain.scan.Of spool.dir then some (afterDrain posted pass.drain) else none
    else if pass.diskOk then
      if pass.trim.Of spool.dir then some (afterStore posted pass.trim pass.reading frame) else none
    else some (drop posted frame)

def Starts (spool : Spool) : Prop :=
  (names spool.dir).Nodup ∧
    (∀ file ∈ spool.dir, isJpg file.name = true →
      ∃ reading ∈ spool.readings, file.name = frameName reading) ∧
    (spool.dir.map File.frame).Perm (List.range spool.taken) ∧
    spool.posts = [] ∧ spool.evicted = [] ∧ spool.dropped = []

/-- A frame that is stored is named by a reading of its own. -/
def DistinctReadings (spool : Spool) (pass : Pass) : Prop :=
  pass.copied = true → pass.live ≠ some true → pass.diskOk = true →
    pass.reading ∉ spool.readings

instance (spool : Spool) (pass : Pass) : Decidable (DistinctReadings spool pass) := by
  unfold DistinctReadings
  infer_instance

/-- The frames whose post has succeeded, as often as it has. -/
def postedFrames (posts : List (Nat × Bool)) : List Nat := (posts.filter Prod.snd).map Prod.fst

/-- Every frame taken is in one place, once: posted, stored, evicted or dropped. -/
def Conserved (spool : Spool) : Prop :=
  (postedFrames spool.posts ++ spool.dir.map File.frame ++ spool.evicted ++ spool.dropped).Perm
    (List.range spool.taken)

structure Kept (spool : Spool) : Prop where
  distinct : (names spool.dir).Nodup
  named : ∀ file ∈ spool.dir, isJpg file.name = true →
    ∃ reading ∈ spool.readings, file.name = frameName reading
  conserved : Conserved spool

/-! ## One pass -/

theorem postedFrames_append (left right : List (Nat × Bool)) :
    postedFrames (left ++ right) = postedFrames left ++ postedFrames right := by
  simp [postedFrames]

theorem postedFrames_drain (posts : List Post) :
    postedFrames (posts.map fun post => (post.file.frame, post.ok)) =
      (delivered posts).map File.frame := by
  simp [postedFrames, delivered, List.filter_map, Function.comp_def]

theorem conserved_count (spool : Spool) (conserved : Conserved spool) (number : Nat) :
    (postedFrames spool.posts).count number + (spool.dir.map File.frame).count number +
        spool.evicted.count number + spool.dropped.count number =
      (List.range spool.taken).count number := by
  rw [← conserved.count_eq]
  simp only [List.count_append]

theorem kept_drop (spool : Spool) (kept : Kept spool) (posts : List (Nat × Bool))
    (failed : postedFrames posts = []) :
    Kept (drop { spool with posts := spool.posts ++ posts, taken := spool.taken + 1 }
      spool.taken) := by
  refine ⟨kept.distinct, kept.named, List.perm_iff_count.mpr fun number => ?_⟩
  have before := conserved_count spool kept.conserved number
  simp only [drop, postedFrames_append, failed, List.append_nil, List.count_append,
    List.range_succ]
  omega

theorem kept_drain (spool : Spool) (kept : Kept spool) (io : DrainIo)
    (of : io.scan.Of spool.dir) :
    Kept (afterDrain { spool with
      posts := spool.posts ++ [(spool.taken, true)], taken := spool.taken + 1 } io) := by
  have distinct := kept.distinct
  refine ⟨names_unlinkAll _ _ distinct, fun file member => ?_, ?_⟩
  · exact kept.named file ((unlinkAll_sublist _ _).subset member)
  · refine List.perm_iff_count.mpr fun number => ?_
    have before := conserved_count spool kept.conserved number
    have moved := ((drained_perm io 5 spool.dir of distinct).map File.frame).count_eq number
    have live : postedFrames [(spool.taken, true)] = [spool.taken] := rfl
    simp only [List.map_append, List.count_append] at moved
    simp only [afterDrain, postedFrames_append, postedFrames_drain, live, List.count_append,
      List.range_succ]
    omega

theorem frameName_fresh (spool : Spool) (kept : Kept spool) (reading : Timespec)
    (fresh : reading ∉ spool.readings) : frameName reading ∉ names spool.dir := by
  intro present
  obtain ⟨file, member, same⟩ := List.mem_map.mp present
  obtain ⟨other, earlier, named⟩ := kept.named file member (by rw [same, frameName_isJpg])
  rw [same] at named
  exact fresh (frameName_injective named ▸ earlier)

theorem trimmed_count (scan : Scan) (dir : Directory) (number : Nat) :
    ((offlineFramesTrim scan dir).map File.frame).count number +
        ((dir.filter fun file => file.name ∈ doomed scan).map File.frame).count number =
      (dir.map File.frame).count number := by
  have split := ((List.filter_append_perm (fun file : File => decide (file.name ∈ doomed scan))
    dir).map File.frame).count_eq number
  rw [offlineFramesTrim_eq, unlinkAll]
  simp only [List.map_append, List.count_append, decide_not] at split ⊢
  omega

theorem kept_store (spool : Spool) (kept : Kept spool) (posts : List (Nat × Bool))
    (failed : postedFrames posts = []) (scan : Scan) (reading : Timespec)
    (fresh : reading ∉ spool.readings) :
    Kept (afterStore { spool with posts := spool.posts ++ posts, taken := spool.taken + 1 }
      scan reading spool.taken) := by
  have trimmed := offlineFramesTrim_sublist scan spool.dir
  have absent : frameName reading ∉ names (offlineFramesTrim scan spool.dir) := fun present =>
    frameName_fresh spool kept reading fresh ((trimmed.map File.name).subset present)
  have stored : offlineFramesStore reading spool.taken (offlineFramesTrim scan spool.dir) =
      offlineFramesTrim scan spool.dir ++ [⟨frameName reading, spool.taken⟩] := by
    rw [offlineFramesStore, unlinkAll_fresh _ _ absent]
  refine ⟨?_, ?_, List.perm_iff_count.mpr fun number => ?_⟩
  · simp only [afterStore, stored, names, List.map_append, List.map_cons, List.map_nil]
    apply (kept.distinct.sublist (trimmed.map File.name)).append (List.nodup_singleton _)
    simpa [names] using absent
  · intro file member jpg
    simp only [afterStore, stored] at member ⊢
    rcases List.mem_append.mp member with older | newest
    · obtain ⟨other, earlier, named⟩ := kept.named file (trimmed.subset older) jpg
      exact ⟨other, List.mem_append_left _ earlier, named⟩
    · rw [List.mem_singleton.mp newest]
      exact ⟨reading, List.mem_append_right _ List.mem_cons_self, rfl⟩
  · have before := conserved_count spool kept.conserved number
    have split := trimmed_count scan spool.dir number
    simp only [afterStore, stored, postedFrames_append, failed, List.append_nil, List.map_append,
      List.map_cons, List.map_nil, List.count_append, List.range_succ]
    omega

theorem kept_pass (spool : Spool) (pass : Pass) (next : Spool) (kept : Kept spool)
    (distinct : DistinctReadings spool pass) (moved : pushThread spool pass = some next) :
    Kept next := by
  simp only [pushThread] at moved
  cases copied : pass.copied with
  | false =>
      simp only [copied, Bool.not_false, if_true, Option.some.injEq] at moved
      subst moved
      simpa using kept_drop spool kept [] rfl
  | true =>
      simp only [copied, Bool.not_true, Bool.false_eq_true, if_false] at moved
      split at moved
      · next live =>
        split at moved
        · next of =>
          cases moved
          simp only [live, Option.map_some, Option.toList_some]
          exact kept_drain spool kept pass.drain of
        · cases moved
      · next live =>
        have failed : postedFrames (pass.live.map fun ok => (spool.taken, ok)).toList = [] := by
          cases outcome : pass.live with
          | none => rfl
          | some ok =>
              cases ok with
              | true => exact absurd outcome live
              | false => rfl
        split at moved
        · next space =>
          split at moved <;> cases moved
          exact kept_store spool kept _ failed pass.trim pass.reading (distinct copied live space)
        · cases moved
          exact kept_drop spool kept _ failed

/-! ## Whole runs -/

/-- In a run whose stored frames have readings of their own every frame is, at each
loop head, in exactly one place, and the drain that may follow is in order. -/
theorem frames_conserved (spool : Spool)
    (reached : ReachableWithin pushThread Starts DistinctReadings spool) :
    Conserved spool ∧ ∀ io : DrainIo, io.scan.Of spool.dir →
      spool.dir.length ≤ maxOfflineFrames + 64 → DrainsInOrder io 5 spool.dir := by
  have kept : Kept spool := by
    apply reachable_within_invariant pushThread Starts Kept DistinctReadings _ kept_pass spool
      reached
    rintro start ⟨distinct, named, earlier, posts, evicted, dropped⟩
    refine ⟨distinct, named, ?_⟩
    rw [Conserved, posts, evicted, dropped]
    simpa [postedFrames] using earlier
  exact ⟨kept.conserved, fun io of few => drains_in_order io 5 spool.dir of kept.distinct few⟩

def noon : Timespec := ⟨1700000000, 5, by norm_num⟩

/-- The first frame is refused and stored, the second is posted and drains it. -/
def recovery : List Pass :=
  [⟨true, some false, true, ⟨⟨[], fun _ => true⟩, fun _ => true, fun _ => true⟩,
      ⟨[], fun _ => true⟩, noon⟩,
    ⟨true, some true, true,
      ⟨⟨[frameName noon], fun _ => true⟩, fun _ => true, fun _ => true⟩, ⟨[], fun _ => true⟩, noon⟩]

theorem frames_conserved_recovery :
    let spool : Spool := ⟨[], [(0, false), (1, true), (0, true)], [], [], 2, [noon]⟩
    exec pushThread ⟨[], [], [], [], 0, []⟩ recovery = some spool ∧ Conserved spool ∧
      ∀ io : DrainIo, io.scan.Of spool.dir → spool.dir.length ≤ maxOfflineFrames + 64 →
        DrainsInOrder io 5 spool.dir := by
  have ran : exec pushThread ⟨[], [], [], [], 0, []⟩ recovery =
      some ⟨[], [(0, false), (1, true), (0, true)], [], [], 2, [noon]⟩ := by decide +kernel
  refine ⟨ran, frames_conserved _ ⟨_, recovery, ?_, by decide +kernel, ran⟩⟩
  exact ⟨List.nodup_nil, nofun, .nil, rfl, rfl, rfl⟩

end SensorNode.FrameLedger
