import SensorNode.FrameStore

/-!
The order of the offline frames by name against their order in time. A name is the
seconds without padding and nine digits of nanoseconds, so of two names the shorter
one is compared with the leading digits of the longer: frames are in order exactly
when the older time, scaled by the missing digits, is not beyond the newer.
-/

namespace SensorNode.FrameChronology

open LineStream DecimalText FrameStore

/-! ## Digit strings as C compares them -/

def AllDigits (text : Bytes) : Prop := ∀ byte ∈ text, isDigit byte = true

theorem digitsValue_append (front back : Bytes) :
    digitsValue (front ++ back) = digitsValue front * 10 ^ back.length + digitsValue back := by
  have folded (total : Nat) : back.foldl (fun total byte => 10 * total + digitValue byte) total =
      total * 10 ^ back.length + digitsValue back := by
    unfold digitsValue
    induction back generalizing total with
    | nil => simp
    | cons byte rest ih =>
        rw [List.foldl_cons, List.foldl_cons, ih, ih (10 * 0 + digitValue byte), List.length_cons,
          pow_succ]
        ring
  unfold digitsValue
  rw [List.foldl_append]
  exact folded _

theorem digitsValue_cons (byte : UInt8) (rest : Bytes) :
    digitsValue (byte :: rest) = digitValue byte * 10 ^ rest.length + digitsValue rest := by
  have split := digitsValue_append [byte] rest
  simpa [digitsValue] using split

theorem digit_range (byte : UInt8) (digit : isDigit byte = true) :
    48 ≤ byte.toNat ∧ byte.toNat ≤ 57 := by
  unfold isDigit at digit
  rw [Bool.and_eq_true, decide_eq_true_eq, decide_eq_true_eq] at digit
  exact ⟨UInt8.le_iff_toNat_le.mp digit.1, UInt8.le_iff_toNat_le.mp digit.2⟩

theorem digitsValue_lt (text : Bytes) (digits : AllDigits text) :
    digitsValue text < 10 ^ text.length := by
  induction text with
  | nil => exact Nat.one_pos
  | cons byte rest ih =>
      obtain ⟨first, tail⟩ := List.forall_mem_cons.mp digits
      have small := ih tail
      have range := digit_range byte first
      have head : digitValue byte ≤ 9 := by
        unfold digitValue
        omega
      have bound := Nat.mul_le_mul_right (10 ^ rest.length) head
      rw [digitsValue_cons, List.length_cons, pow_succ]
      omega

theorem strcmpLe_front (front left right : Bytes) :
    strcmpLe (front ++ left) (front ++ right) = strcmpLe left right := by
  induction front with
  | nil => rfl
  | cons byte rest ih => simpa [strcmpLe] using ih

theorem strcmpLe_less (left right rest other : Bytes) (leftDigits : AllDigits left)
    (rightDigits : AllDigits right) (same : left.length = right.length)
    (less : digitsValue left < digitsValue right) :
    strcmpLe (left ++ rest) (right ++ other) = true := by
  induction left generalizing right with
  | nil =>
      cases right with
      | nil => exact absurd less (lt_irrefl _)
      | cons second right => cases same
  | cons first left ih =>
      cases right with
      | nil => cases same
      | cons second right =>
          obtain ⟨firstDigit, leftTail⟩ := List.forall_mem_cons.mp leftDigits
          obtain ⟨secondDigit, rightTail⟩ := List.forall_mem_cons.mp rightDigits
          have lengths : left.length = right.length := Nat.succ.inj same
          rw [digitsValue_cons, digitsValue_cons, lengths] at less
          simp only [List.cons_append, strcmpLe]
          by_cases equal : first = second
          · rw [if_pos equal]
            apply ih right leftTail rightTail lengths
            rw [equal] at less
            omega
          · rw [if_neg equal, decide_eq_true_eq, UInt8.lt_iff_toNat_lt]
            by_contra above
            have apart : first.toNat ≠ second.toNat := mt UInt8.toNat_inj.mp equal
            have firstRange := digit_range first firstDigit
            have secondRange := digit_range second secondDigit
            have step : digitValue second + 1 ≤ digitValue first := by
              unfold digitValue
              omega
            have scaled := Nat.mul_le_mul_right (10 ^ right.length) step
            have small := digitsValue_lt right rightTail
            rw [Nat.add_mul, Nat.one_mul] at scaled
            omega

theorem digits_unique (left right : Bytes) (leftDigits : AllDigits left)
    (rightDigits : AllDigits right) (same : left.length = right.length)
    (equal : digitsValue left = digitsValue right) : left = right := by
  induction left generalizing right with
  | nil => exact (List.length_eq_zero_iff.mp same.symm).symm
  | cons first left ih =>
      cases right with
      | nil => cases same
      | cons second right =>
          obtain ⟨firstDigit, leftTail⟩ := List.forall_mem_cons.mp leftDigits
          obtain ⟨secondDigit, rightTail⟩ := List.forall_mem_cons.mp rightDigits
          have lengths : left.length = right.length := Nat.succ.inj same
          have leftSmall := digitsValue_lt left leftTail
          have rightSmall := digitsValue_lt right rightTail
          have firstRange := digit_range first firstDigit
          have secondRange := digit_range second secondDigit
          rw [digitsValue_cons, digitsValue_cons, lengths] at equal
          rw [lengths] at leftSmall
          have digit : digitValue first = digitValue second := by
            have positive : 0 < 10 ^ right.length := by positivity
            have divided := congrArg (· / 10 ^ right.length) equal
            simpa [Nat.mul_add_div positive, Nat.mul_comm, Nat.div_eq_of_lt leftSmall,
              Nat.div_eq_of_lt rightSmall] using divided
          have value : digitsValue left = digitsValue right := by
            rw [digit] at equal
            omega
          have byte : first = second := by
            apply UInt8.toNat_inj.mp
            unfold digitValue at digit
            omega
          rw [byte, ih right leftTail rightTail lengths value]

theorem dot_first (tail : Bytes) (digits : AllDigits tail) :
    strcmpLe (ascii ".jpg") (tail ++ ascii ".jpg") = true := by
  cases tail with
  | nil => decide
  | cons byte rest =>
      have range := digit_range byte (digits byte List.mem_cons_self)
      have apart : (46 : UInt8) ≠ byte := by
        rintro rfl
        exact absurd range.1 (by decide)
      have smaller : (46 : UInt8) < byte := by
        rw [UInt8.lt_iff_toNat_lt]
        show 46 < byte.toNat
        omega
      show strcmpLe (46 :: _) (byte :: _) = true
      rw [strcmpLe, if_neg apart]
      exact decide_eq_true smaller

/-! ## Names and times -/

def nanos (reading : Timespec) : Nat := reading.sec.toInt.toNat * 10 ^ 9 + reading.nsec

def width (reading : Timespec) : Nat := (decimal reading.sec.toInt.toNat).length

def stamp (reading : Timespec) : Bytes :=
  decimal reading.sec.toInt.toNat ++ paddedNine reading.nsec

section
variable (reading : Timespec)

theorem frameName_stamp (nonneg : 0 ≤ reading.sec) :
    frameName reading = stamp reading ++ ascii ".jpg" := by
  have sign : ¬ reading.sec.toInt < 0 := by
    have above := Int64.le_iff_toInt_le.mp nonneg
    exact not_lt.mpr above
  have size : reading.sec.toInt.natAbs = reading.sec.toInt.toNat := by omega
  rw [frameName, decimalInt, if_neg sign, size]
  rfl

theorem paddedNine_digits (number : Nat) : AllDigits (paddedNine number) := by
  intro byte member
  rcases List.mem_append.mp member with zero | digit
  · exact List.eq_of_mem_replicate zero ▸ digitByte_isDigit 0 (by decide)
  · exact decimal_digits number byte digit

theorem stamp_digits : AllDigits (stamp reading) := by
  intro byte member
  rcases List.mem_append.mp member with second | fraction
  · exact decimal_digits _ byte second
  · exact paddedNine_digits _ byte fraction

theorem stamp_length : (stamp reading).length = width reading + 9 := by
  rw [stamp, List.length_append, paddedNine_length _ reading.small]
  rfl

theorem stamp_value : digitsValue (stamp reading) = nanos reading := by
  rw [stamp, digitsValue_append, paddedNine_length _ reading.small, decimal_value, paddedNine,
    digitsValue_padded, decimal_value]
  rfl

end

theorem decimal_length_mono {small large : Nat} (le : small ≤ large) :
    (decimal small).length ≤ (decimal large).length := by
  unfold decimal
  by_cases zero : small = 0
  · rw [if_pos zero]
    exact List.length_pos_iff.mpr (decimal_nonempty large)
  · rw [if_neg zero, if_neg (by omega), List.length_map, List.length_map, List.length_reverse,
      List.length_reverse]
    exact Nat.le_length_digits_le 10 small large le

theorem nanos_injective {first second : Timespec} (one : 0 ≤ first.sec) (other : 0 ≤ second.sec)
    (same : nanos first = nanos second) : first = second := by
  have firstSmall := first.small
  have secondSmall := second.small
  have firstSign : 0 ≤ first.sec.toInt := Int64.le_iff_toInt_le.mp one
  have secondSign : 0 ≤ second.sec.toInt := Int64.le_iff_toInt_le.mp other
  unfold nanos at same
  have sec : first.sec = second.sec := Int64.toInt_inj.mp (by omega)
  have nsec : first.nsec = second.nsec := by
    rw [sec] at same
    omega
  cases first
  cases second
  simp only [Timespec.mk.injEq]
  exact ⟨sec, nsec⟩

section
variable (older newer : Timespec) (before : nanos older < nanos newer)
include before

theorem width_mono : width older ≤ width newer := by
  apply decimal_length_mono
  have small := newer.small
  unfold nanos at before
  omega

/-- The names of two frames are in order exactly when the older time, written with as many
digits as the newer has, is not beyond it. -/
theorem frameName_inOrder_iff (one : 0 ≤ older.sec) (other : 0 ≤ newer.sec) :
    InOrder (frameName older) (frameName newer) ↔
      nanos older * 10 ^ (width newer - width older) ≤ nanos newer := by
  have widths := width_mono older newer before
  have digits := stamp_digits older
  have long := stamp_digits newer
  have whole := List.take_append_drop (width older + 9) (stamp newer)
  -- The newer stamp is cut where the older one ends.
  generalize front : (stamp newer).take (width older + 9) = head at whole
  generalize back : (stamp newer).drop (width older + 9) = tail at whole
  have headDigits : AllDigits head := fun byte member =>
    long byte (List.mem_of_mem_take (by rw [front]; exact member))
  have tailDigits : AllDigits tail := fun byte member =>
    long byte (List.mem_of_mem_drop (by rw [back]; exact member))
  have headLength : (stamp older).length = head.length := by
    rw [← front, List.length_take, stamp_length, stamp_length]
    omega
  have tailLength : tail.length = width newer - width older := by
    rw [← back, List.length_drop, stamp_length]
    omega
  have value : nanos newer =
      digitsValue head * 10 ^ (width newer - width older) + digitsValue tail := by
    rw [← stamp_value, ← whole, digitsValue_append, tailLength]
  have small := digitsValue_lt tail tailDigits
  rw [tailLength] at small
  have scale : nanos older * 10 ^ (width newer - width older) ≤ nanos newer ↔
      nanos older ≤ digitsValue head := by
    have positive : 0 < 10 ^ (width newer - width older) := by positivity
    rw [← Nat.le_div_iff_mul_le positive, value, Nat.mul_comm, Nat.mul_add_div positive,
      Nat.div_eq_of_lt small, Nat.add_zero]
  unfold InOrder
  rw [scale, frameName_stamp older one, frameName_stamp newer other, ← whole, List.append_assoc]
  -- The cut parts are as long, so they compare as numbers; if equal, the rest decides.
  rcases lt_trichotomy (nanos older) (digitsValue head) with less | equal | greater
  · have first := strcmpLe_less (stamp older) head (ascii ".jpg") (tail ++ ascii ".jpg") digits
      headDigits headLength (by rw [stamp_value]; exact less)
    exact iff_of_true first less.le
  · have shared := digits_unique (stamp older) head digits headDigits headLength
      (by rw [stamp_value]; exact equal)
    rw [shared, strcmpLe_front]
    exact iff_of_true (dot_first tail tailDigits) equal.le
  · refine iff_of_false ?_ (not_le.mpr greater)
    intro first
    have second := strcmpLe_less head (stamp older) (tail ++ ascii ".jpg") (ascii ".jpg") headDigits
      digits headLength.symm (by rw [stamp_value]; exact greater)
    have same := strcmpLe_antisymm _ _ first second
    have fronts := (List.append_inj same headLength).1
    rw [← stamp_value, fronts] at greater
    exact absurd greater (lt_irrefl _)

end

/-! ## A frame that a listing misses -/

/-- A pass that meets one frame after all the others. -/
def lastScan (others : List Timespec) (last : Timespec) : Scan :=
  ⟨(others ++ [last]).map frameName, fun _ => true⟩

section
variable (others : List Timespec) (last : Timespec)
  (many : maxOfflineFrames + 64 ≤ others.length)
include many

theorem lastScan_listed :
    (listOfflineFrames (lastScan others last) (maxOfflineFrames + 64)).Perm
      ((others.take (maxOfflineFrames + 64)).map frameName) := by
  have met := listOfflineFrames_perm (lastScan others last) (maxOfflineFrames + 64)
  have jpg : (lastScan others last).order.filter isJpg = (lastScan others last).order := by
    apply List.filter_eq_self.mpr
    intro name member
    obtain ⟨reading, _, rfl⟩ := List.mem_map.mp member
    exact frameName_isJpg reading
  have front : (lastScan others last).order.take (maxOfflineFrames + 64) =
      (others.take (maxOfflineFrames + 64)).map frameName := by
    rw [lastScan, ← List.map_take, List.take_append_of_le_length many]
  have copied : (lastScan others last).order.filter (lastScan others last).copies =
      (lastScan others last).order := List.filter_eq_self.mpr fun _ _ => rfl
  rwa [jpg, copied, front] at met

theorem lastScan_doomed : 0 < (doomed (lastScan others last)).length := by
  have full := (lastScan_listed others last many).length_eq
  rw [List.length_map, List.length_take] at full
  rw [doomed, List.length_take]
  omega

end

/-! ## Listing, trimming and draining by age -/

theorem pairwise_either {Element : Type} {R : Element → Element → Prop} {list : List Element}
    (pairs : list.Pairwise R) {first second : Element} (one : first ∈ list) (other : second ∈ list)
    (apart : first ≠ second) : R first second ∨ R second first := by
  have symmetric : Std.Symm fun first second => R first second ∨ R second first :=
    ⟨fun _ _ => Or.symm⟩
  exact List.Pairwise.forall (R := fun first second => R first second ∨ R second first)
    (pairs.imp Or.inl) one other apart

/-- Age decides about the frames stored at some readings of the clock, whatever order
`readdir` gives and as long as memory lasts. -/
structure ByAge (stamps : List Timespec) (dir : Directory) : Prop where
  /-- The listing is chronological. -/
  listed : ∀ scan : Scan, scan.Of dir → (∀ name, scan.copies name = true) →
    ∃ readings : List Timespec,
      listOfflineFrames scan (maxOfflineFrames + 64) = readings.map frameName ∧
      readings.Pairwise fun older newer => nanos older < nanos newer
  /-- A frame that a trim deletes is older than any that it keeps. -/
  trimmed : ∀ scan : Scan, scan.Of dir → (∀ name, scan.copies name = true) →
    ∀ gone ∈ stamps, ∀ kept ∈ stamps, frameName gone ∉ names (offlineFramesTrim scan dir) →
      frameName kept ∈ names (offlineFramesTrim scan dir) → nanos gone < nanos kept
  /-- A drain posts in chronological order, and none that is newer than one it leaves. -/
  drained : ∀ (io : DrainIo) (maxBatch : Nat), io.scan.Of dir →
    (∀ name, io.scan.copies name = true) → (∀ name, io.buffers name = true) →
    ∃ readings : List Timespec,
      (drainPosts io maxBatch dir).map (·.file.name) = readings.map frameName ∧
      (readings.Pairwise fun older newer => nanos older < nanos newer) ∧
      ∀ posted ∈ readings, ∀ left ∈ stamps, left ∉ readings → nanos posted < nanos left

/-- Older times are not beyond newer ones even when written with as many digits, and
the listing has room for all frames. -/
structure Aligned (stamps : List Timespec) : Prop where
  digits : ∀ older ∈ stamps, ∀ newer ∈ stamps, nanos older < nanos newer →
    nanos older * 10 ^ (width newer - width older) ≤ nanos newer
  few : stamps.length ≤ maxOfflineFrames + 64

def chronological (stamps : List Timespec) : List Timespec :=
  stamps.insertionSort fun first second => nanos first ≤ nanos second

section
variable (stamps : List Timespec) (dir : Directory) (named : names dir = stamps.map frameName)
  (distinct : stamps.Nodup) (nonneg : ∀ reading ∈ stamps, 0 ≤ reading.sec)

omit named in
theorem chronological_perm : (chronological stamps).Perm stamps := List.perm_insertionSort _ _

include distinct nonneg in
omit named in
theorem chronological_pairwise :
    (chronological stamps).Pairwise fun older newer => nanos older < nanos newer := by
  have total : Std.Total fun first second : Timespec => nanos first ≤ nanos second :=
    ⟨fun first second => Nat.le_total _ _⟩
  have transitive : IsTrans Timespec fun first second => nanos first ≤ nanos second :=
    ⟨fun _ _ _ => Nat.le_trans⟩
  have sorted : (chronological stamps).Pairwise fun first second => nanos first ≤ nanos second :=
    List.pairwise_insertionSort _ _
  have apart := (chronological_perm stamps).nodup_iff.mpr distinct
  refine (List.Pairwise.and sorted apart).imp_of_mem ?_
  intro first second one other both
  have firstSign := nonneg first ((chronological_perm stamps).mem_iff.mp one)
  have secondSign := nonneg second ((chronological_perm stamps).mem_iff.mp other)
  exact lt_of_le_of_ne both.1 fun same => both.2 (nanos_injective firstSign secondSign same)

include named in
omit distinct nonneg in
theorem names_jpg : (names dir).filter isJpg = names dir := by
  apply List.filter_eq_self.mpr
  intro name member
  rw [named] at member
  obtain ⟨reading, _, rfl⟩ := List.mem_map.mp member
  exact frameName_isJpg reading

include named distinct nonneg in
theorem listed_chronological (aligned : Aligned stamps) (scan : Scan) (of : scan.Of dir)
    (copied : ∀ name, scan.copies name = true) :
    listOfflineFrames scan (maxOfflineFrames + 64) = (chronological stamps).map frameName := by
  have size : dir.length ≤ maxOfflineFrames + 64 := by
    have lengths := congrArg List.length named
    rw [names, List.length_map, List.length_map] at lengths
    have few := aligned.few
    omega
  rw [listed_complete scan _ dir of size, inOrder, names_jpg stamps dir named, named,
    List.filter_eq_self.mpr fun name _ => copied name]
  have perm : ((stamps.map frameName).insertionSort InOrder).Perm
      ((chronological stamps).map frameName) :=
    (List.perm_insertionSort _ _).trans ((chronological_perm stamps).symm.map frameName)
  have sorted : ((chronological stamps).map frameName).Pairwise InOrder := by
    rw [List.pairwise_map]
    refine (chronological_pairwise stamps distinct nonneg).imp_of_mem ?_
    intro older newer one other before
    have oldIn := (chronological_perm stamps).mem_iff.mp one
    have newIn := (chronological_perm stamps).mem_iff.mp other
    exact (frameName_inOrder_iff older newer before (nonneg older oldIn) (nonneg newer newIn)).mpr
      (aligned.digits older oldIn newer newIn before)
  exact perm.eq_of_pairwise (fun a b _ _ => strcmpLe_antisymm a b)
    (List.pairwise_insertionSort InOrder _) sorted

include distinct nonneg in
omit named in
theorem front_older (count : Nat) (front back : Timespec)
    (first : front ∈ (chronological stamps).take count) (member : back ∈ stamps)
    (later : back ∉ (chronological stamps).take count) : nanos front < nanos back := by
  have pairs := chronological_pairwise stamps distinct nonneg
  have split := List.take_append_drop count (chronological stamps)
  rw [← split, List.pairwise_append] at pairs
  have inside := (chronological_perm stamps).mem_iff.mpr member
  rw [← split] at inside
  exact pairs.2.2 front first back ((List.mem_append.mp inside).resolve_left later)

omit named distinct nonneg in
theorem mem_map_frameName (readings : List Timespec) (reading : Timespec) :
    frameName reading ∈ readings.map frameName ↔ reading ∈ readings :=
  List.mem_map_of_injective fun _ _ => frameName_injective

omit named distinct nonneg in
theorem mem_names_unlinkAll (gone : List Bytes) (name : Bytes) :
    name ∈ names (unlinkAll gone dir) ↔ name ∈ names dir ∧ name ∉ gone := by
  constructor
  · intro member
    obtain ⟨file, stays, rfl⟩ := List.mem_map.mp member
    obtain ⟨present, kept⟩ := (mem_unlinkAll gone dir file).mp stays
    exact ⟨List.mem_map_of_mem present, kept⟩
  · rintro ⟨present, kept⟩
    obtain ⟨file, there, rfl⟩ := List.mem_map.mp present
    exact List.mem_map_of_mem ((mem_unlinkAll gone dir file).mpr ⟨there, kept⟩)

include named distinct nonneg

theorem byAge_of_aligned (aligned : Aligned stamps) : ByAge stamps dir := by
  constructor
  · intro scan of copied
    exact ⟨_, listed_chronological stamps dir named distinct nonneg aligned scan of copied,
      chronological_pairwise stamps distinct nonneg⟩
  · intro scan of copied gone goneIn kept keptIn removed stays
    have listed := listed_chronological stamps dir named distinct nonneg aligned scan of copied
    have present : frameName gone ∈ names dir := named ▸ List.mem_map_of_mem goneIn
    rw [offlineFramesTrim_eq, mem_names_unlinkAll] at removed stays
    have first : frameName gone ∈ doomed scan := by
      by_contra absent
      exact removed ⟨present, absent⟩
    have later := stays.2
    rw [doomed, listed, ← List.map_take, mem_map_frameName] at first later
    exact front_older stamps distinct nonneg _ gone kept first keptIn later
  · intro io maxBatch of copied buffered
    have listed := listed_chronological stamps dir named distinct nonneg aligned io.scan of copied
    have posts := (drainPosts_names io maxBatch dir of).1
    rw [List.filter_eq_self.mpr fun name _ => buffered name, listed, ← List.map_take] at posts
    refine ⟨_, posts, ?_, ?_⟩
    · exact (chronological_pairwise stamps distinct nonneg).sublist (List.take_sublist _ _)
    · intro posted first left member later
      exact front_older stamps distinct nonneg _ posted left first member later

omit distinct in
/-- One listing in the wrong order is enough to tell two frames that are not aligned. -/
theorem digits_of_byAge (byAge : ByAge stamps dir) (few : stamps.length ≤ maxOfflineFrames + 64)
    (older newer : Timespec) (one : older ∈ stamps) (other : newer ∈ stamps)
    (before : nanos older < nanos newer) :
    nanos older * 10 ^ (width newer - width older) ≤ nanos newer := by
  have of : (Scan.mk (names dir) fun _ => true).Of dir := List.Perm.refl _
  obtain ⟨readings, listed, chrono⟩ := byAge.listed _ of fun _ => rfl
  have size : dir.length ≤ maxOfflineFrames + 64 := by
    have lengths := congrArg List.length named
    rw [names, List.length_map, List.length_map] at lengths
    omega
  have sorted := listOfflineFrames_sorted (Scan.mk (names dir) fun _ => true)
    (maxOfflineFrames + 64)
  rw [listed, List.pairwise_map] at sorted
  have all (reading : Timespec) (stored : reading ∈ stamps) : reading ∈ readings := by
    rw [← mem_map_frameName, ← listed, listed_complete _ _ dir of size, inOrder,
      names_jpg stamps dir named, List.filter_eq_self.mpr fun _ _ => rfl, List.mem_insertionSort,
      named]
    exact List.mem_map_of_mem stored
  have apart : older ≠ newer := by
    rintro rfl
    exact absurd before (lt_irrefl _)
  have both := List.Pairwise.and sorted chrono
  rcases pairwise_either both (all older one) (all newer other) apart with
    ⟨ordered, _⟩ | ⟨_, backward⟩
  · have iff := frameName_inOrder_iff older newer before (nonneg older one) (nonneg newer other)
    exact iff.mp ordered
  · exact absurd backward (lt_asymm before)

/-- With more frames than a listing holds, one that meets the oldest last trims newer ones. -/
theorem few_of_byAge (byAge : ByAge stamps dir) : stamps.length ≤ maxOfflineFrames + 64 := by
  by_contra many
  have perm := chronological_perm stamps
  have pairs := chronological_pairwise stamps distinct nonneg
  cases sorted : chronological stamps with
  | nil =>
      have none := perm.length_eq
      rw [sorted, List.length_nil] at none
      omega
  | cons oldest rest =>
      rw [sorted] at perm pairs
      obtain ⟨oldestFirst, _⟩ := List.pairwise_cons.mp pairs
      have length := perm.length_eq
      rw [List.length_cons] at length
      have of : (lastScan rest oldest).Of dir := by
        unfold Scan.Of
        rw [named]
        exact ((List.perm_append_singleton oldest rest).trans perm).map frameName
      -- The listing is full before the oldest frame is met, so a newer one is removed.
      have met := lastScan_listed rest oldest (by omega)
      have unlisted : frameName oldest ∉ doomed (lastScan rest oldest) := by
        intro early
        have member := List.mem_of_mem_take early
        rw [met.mem_iff, mem_map_frameName] at member
        exact absurd (oldestFirst oldest (List.mem_of_mem_take member)) (lt_irrefl _)
      obtain ⟨name, removed⟩ :=
        List.exists_mem_of_length_pos (lastScan_doomed rest oldest (by omega))
      have listed := List.mem_of_mem_take removed
      rw [met.mem_iff] at listed
      obtain ⟨gone, goneIn, rfl⟩ := List.mem_map.mp listed
      have goneRest := List.mem_of_mem_take goneIn
      have goneStored := perm.mem_iff.mp (List.mem_cons_of_mem oldest goneRest)
      have oldestStored := perm.mem_iff.mp (List.mem_cons_self (a := oldest) (l := rest))
      have absent : frameName gone ∉ names (offlineFramesTrim (lastScan rest oldest) dir) := by
        rw [offlineFramesTrim_eq, mem_names_unlinkAll]
        exact fun stays => stays.2 removed
      have present : frameName oldest ∈ names (offlineFramesTrim (lastScan rest oldest) dir) := by
        rw [offlineFramesTrim_eq, mem_names_unlinkAll, named]
        exact ⟨List.mem_map_of_mem oldestStored, unlisted⟩
      have newer := byAge.trimmed _ of (fun _ => rfl) gone goneStored oldest oldestStored
        absent present
      exact absurd (oldestFirst gone goneRest) (lt_asymm newer)

/-- Frames are listed, trimmed and drained by age exactly when they are aligned. -/
theorem byAge_iff : ByAge stamps dir ↔ Aligned stamps := by
  constructor
  · intro byAge
    have few := few_of_byAge stamps dir named distinct nonneg byAge
    exact ⟨fun older one newer other before =>
      digits_of_byAge stamps dir named nonneg byAge few older newer one other before, few⟩
  · exact byAge_of_aligned stamps dir named distinct nonneg

end

def early : Timespec := ⟨86400, 0, by decide⟩
def synced : Timespec := ⟨1700000000, 5, by decide⟩
def later : Timespec := ⟨1700000001, 0, by decide⟩

theorem byAge_iff_synced :
    ByAge [synced, later] [⟨frameName synced, 0⟩, ⟨frameName later, 1⟩] :=
  (byAge_iff [synced, later] [⟨frameName synced, 0⟩, ⟨frameName later, 1⟩] rfl (by decide)
    (by decide)).mpr ⟨by decide +kernel, by simp⟩

/-- A frame stored before the clock was set is listed after one stored since. -/
theorem byAge_unsynced : ¬ ∀ (stamps : List Timespec) (dir : Directory),
    names dir = stamps.map frameName → stamps.Nodup → (∀ reading ∈ stamps, 0 ≤ reading.sec) →
    ByAge stamps dir := by
  intro always
  have nonneg : ∀ reading ∈ [early, synced], 0 ≤ reading.sec := by decide
  have byAge := always [early, synced] [⟨frameName early, 0⟩, ⟨frameName synced, 1⟩] rfl (by decide)
    nonneg
  have aligned := digits_of_byAge _ _ rfl nonneg byAge (by simp) early synced (by simp) (by simp)
    (by decide)
  exact absurd aligned (by decide +kernel)

end SensorNode.FrameChronology
