import SensorNode.OfflineQueue
import SensorNode.TextRows

/-!
What `trim_offline_queue` leaves behind. It checks no write before the rename,
reads lines through an 8192-byte buffer and writes them as C strings, so the
newest lines survive under conditions on the lines and on the bytes that land,
stated here exactly. A process that dies before the rename changes nothing.
-/

namespace SensorNode.TrimRewrite

open LineStream LineLoss TextRows OfflineQueue

/-- The process dies before the queue file is replaced or removed. -/
def DiesFirst (steps : Nat) (ops : List Op) : Prop :=
  ∀ op ∈ ops.take steps, op.commits = false

/-! ## Dying before the commit -/

theorem dies_or_commits (steps : Nat) (front after : List Op) (commit : Op)
    (quietFront : ∀ op ∈ front, op.commits = false)
    (quietAfter : ∀ op ∈ after, op.commits = false) :
    DiesFirst steps (front ++ commit :: after) ∨
      (commit.commits = true ∧
        ∃ more, (front ++ commit :: after).take steps = front ++ commit :: after.take more) := by
  by_cases early : steps ≤ front.length
  · left
    intro op member
    rw [List.take_append_of_le_length early] at member
    exact quietFront op (List.mem_of_mem_take member)
  · obtain ⟨more, same⟩ := Nat.exists_eq_add_of_lt (not_le.mp early)
    have reached : (front ++ commit :: after).take steps = front ++ commit :: after.take more := by
      rw [same, Nat.add_assoc, List.take_length_add_append, List.take_succ_cons]
    cases outcome : commit.commits with
    | true => exact .inr ⟨rfl, more, reached⟩
    | false =>
        left
        intro op member
        rw [reached] at member
        rcases List.mem_append.mp member with inFront | later
        · exact quietFront op inFront
        · rcases List.mem_cons.mp later with same | inAfter
          · exact same ▸ outcome
          · exact quietAfter op (List.mem_of_mem_take inAfter)

theorem dies_queue (io : TmpIo) (disk : Disk) (steps : Nat) (ops : List Op)
    (dies : DiesFirst steps ops) (noAppend : ∀ op ∈ ops, ∀ payload, op ≠ .append payload) :
    (perform io disk (ops.take steps)).queue = disk.queue := by
  apply perform_spares
  intro op member
  have quiet := dies op member
  have other := noAppend op (List.mem_of_mem_take member)
  cases op with
  | rename tmp done => simpa [Op.spares, Op.commits] using quiet
  | unlinkQueue => cases quiet
  | append payload => exact absurd rfl (other payload)
  | _ => rfl

theorem copies_noAppend (tmp : TmpFile) (op : Op) (copies : op.copies tmp = true)
    (payload : Bytes) : op ≠ .append payload := by
  rintro rfl
  cases copies

/-- A copy loop between the opening and the closing of its temporary file. -/
def copySession (tmp : TmpFile) (ops : List Op) : List Op :=
  .openTmp tmp :: (ops ++ [.closeTmp tmp])

theorem copySession_quiet (tmp : TmpFile) (ops : List Op)
    (copies : ∀ op ∈ ops, op.copies tmp = true) :
    ∀ op ∈ copySession tmp ops, op.commits = false ∧ ∀ payload, op ≠ .append payload := by
  intro op member
  rcases List.mem_cons.mp member with first | later
  · exact first ▸ ⟨rfl, fun _ => nofun⟩
  · rcases List.mem_append.mp later with inLoop | last
    · exact ⟨(copies_spares tmp op (copies op inLoop)).2,
        copies_noAppend tmp op (copies op inLoop)⟩
    · exact List.mem_singleton.mp last ▸ ⟨rfl, fun _ => nofun⟩

/-! ## trim_offline_queue -/

def afterLine (file : Bytes) : Bytes := (file.dropWhile fun byte => byte != newline).tail

def dropLines : Nat → Bytes → Bytes
  | 0, file => file
  | lines + 1, file => dropLines lines (afterLine file)

def takeLines : Nat → Bytes → Bytes
  | 0, _ => []
  | lines + 1, file =>
      (file.takeWhile fun byte => byte != newline) ++ newline :: takeLines lines (afterLine file)

/-- The lines `trim_offline_queue` is to keep: the newest of those it counts. -/
def newestLines (file : Bytes) : Bytes :=
  dropLines (file.count newline - maxOfflineLines) file

/-- Each of the first lines fits the read buffer with its newline. -/
def LinesFit : Nat → Bytes → Prop
  | 0, _ => True
  | lines + 1, file =>
      (file.takeWhile fun byte => byte != newline).length ≤ lineRoom ∧
        LinesFit lines (afterLine file)

instance (lines : Nat) (file : Bytes) : Decidable (LinesFit lines file) := by
  induction lines generalizing file with
  | zero => exact isTrue trivial
  | succ lines ih =>
      unfold LinesFit
      infer_instance

/-- What the copy loop of `trim_offline_queue` passes to `fputs`. -/
def copiedLines (file : Bytes) : Bytes :=
  ((readChunks file).drop (file.count newline - maxOfflineLines)).flatMap cstring

/-- The pieces of the evicted lines that the copy loop copies all the same: it passes
over as many pieces as there are lines to evict. -/
def surplus (file : Bytes) : Bytes :=
  let evicted := file.count newline - maxOfflineLines
  ((readChunks (takeLines evicted file)).drop evicted).flatMap cstring

/-- As many bytes are lost as the surplus has, and a byte that lands with some of them
still to come is the one as many places further on. With all of the surplus lost and
nothing else this is so for any text. -/
def SurplusLost (lands : Nat → Bool) (surplus kept : Bytes) : Prop :=
  lost lands 0 (surplus ++ kept).length = surplus.length ∧
    ∀ offset < (surplus ++ kept).length, lands offset = true →
      (surplus ++ kept)[offset]? =
        (surplus ++ kept)[offset + (surplus.length - lost lands 0 offset)]?

def TrimKeeps (io : TmpIo) (steps : Nat) (disk : Disk) : Prop :=
  let after := (perform io disk ((trimOps io disk.queue).take steps)).queue
  after = disk.queue ∨ after = some (newestLines (disk.queue.getD []))

/-- The condition for `TrimKeeps`. The last case is the one where the lines to
evict overran the buffer, so that the loop copies more than it should. -/
def TrimSafe (io : TmpIo) (steps : Nat) (file : Option Bytes) : Prop :=
  DiesFirst steps (trimOps io file) ∨
    (nul ∉ newestLines (file.getD []) ∧
      if LinesFit (countLines file - maxOfflineLines) (file.getD []) then
        ∀ offset < (newestLines (file.getD [])).length, io.lands offset = true
      else SurplusLost io.lands (surplus (file.getD [])) (newestLines (file.getD [])))

theorem trimLoop_copies (toSkip : Nat) (lines : List Bytes) :
    ∀ op ∈ trimLoop toSkip lines, op.copies .trim = true := by
  induction lines generalizing toSkip with
  | nil => cases toSkip <;> simp [trimLoop]
  | cons line rest ih =>
      cases toSkip with
      | zero => exact List.forall_mem_cons.mpr ⟨rfl, ih 0⟩
      | succ toSkip => exact List.forall_mem_cons.mpr ⟨rfl, ih toSkip⟩

theorem trimLoop_bytes (toSkip : Nat) (lines : List Bytes) :
    bytesTo .trim (trimLoop toSkip lines) = (lines.drop toSkip).flatMap cstring := by
  induction lines generalizing toSkip with
  | nil => cases toSkip <;> rfl
  | cons line rest ih =>
      cases toSkip with
      | zero => exact congrArg (cstring line ++ ·) (ih 0)
      | succ toSkip => exact ih toSkip

theorem line_split (file : Bytes) (present : newline ∈ file) :
    file = (file.takeWhile fun byte => byte != newline) ++ newline :: afterLine file := by
  induction file with
  | nil => cases present
  | cons byte rest ih =>
      by_cases last : byte = newline
      · simp [last, afterLine]
      · have later : newline ∈ rest := by simpa [Ne.symm last] using present
        simpa [last, afterLine] using ih later

theorem dropLines_chunks (lines : Nat) (file : Bytes) (fit : LinesFit lines file)
    (counted : lines ≤ file.count newline) :
    (readChunks file).drop lines = readChunks (dropLines lines file) := by
  induction lines generalizing file with
  | zero => rfl
  | succ lines ih =>
      have present : newline ∈ file := List.count_pos_iff.mp (by omega)
      have parts := line_split file present
      have plain := notMem_takeWhile newline file
      have fewer : lines ≤ (afterLine file).count newline := by
        rw [parts, List.count_append, List.count_eq_zero_of_not_mem plain,
          List.count_cons_self] at counted
        omega
      rw [dropLines, ← ih (afterLine file) fit.2 fewer]
      conv_lhs => rw [parts, readChunks, linesOf_line lineRoom _ _ plain fit.1]
      rfl

theorem readChunks_lines (lines : Nat) (file : Bytes) (counted : lines ≤ file.count newline) :
    readChunks file = readChunks (takeLines lines file) ++ readChunks (dropLines lines file) ∧
      lines ≤ (readChunks (takeLines lines file)).length := by
  induction lines generalizing file with
  | zero => exact ⟨rfl, Nat.zero_le _⟩
  | succ lines ih =>
      have present : newline ∈ file := List.count_pos_iff.mp (by omega)
      have parts := line_split file present
      have plain := notMem_takeWhile newline file
      have fewer : lines ≤ (afterLine file).count newline := by
        rw [parts, List.count_append, List.count_eq_zero_of_not_mem plain,
          List.count_cons_self] at counted
        omega
      have row (rest : Bytes) := linesOf_row lineRoom _ rest plain
      obtain ⟨split, enough⟩ := ih (afterLine file) fewer
      have read : readChunks (takeLines (lines + 1) file) =
          readChunks ((file.takeWhile fun byte => byte != newline) ++ [newline]) ++
            readChunks (takeLines lines (afterLine file)) := row _
      have some' : 0 < (readChunks
          ((file.takeWhile fun byte => byte != newline) ++ [newline])).length := by
        rw [readChunks, linesOf_step lineRoom _ (by simp)]
        exact Nat.succ_pos _
      constructor
      · rw [read, List.append_assoc, dropLines, ← split]
        conv_lhs => rw [parts]
        exact row _
      · rw [read, List.length_append]
        omega

theorem copiedLines_split (file : Bytes) (whole : nul ∉ newestLines file) :
    copiedLines file = surplus file ++ newestLines file := by
  obtain ⟨split, enough⟩ :=
    readChunks_lines (file.count newline - maxOfflineLines) file (Nat.sub_le _ _)
  rw [copiedLines, split, List.drop_append_of_le_length enough, List.flatMap_append]
  exact congrArg (surplus file ++ ·) (flatMap_cstring lineRoom _ whole)

theorem surplusLost_iff (lands : Nat → Bool) (surplus kept : Bytes) :
    landed (mark lands 0 (surplus ++ kept)) = kept ↔ SurplusLost lands surplus kept := by
  have size : kept.length + lost lands 0 (surplus ++ kept).length = (surplus ++ kept).length ↔
      lost lands 0 (surplus ++ kept).length = surplus.length := by
    rw [List.length_append]
    omega
  rw [landed_mark_spells, size]
  refine and_congr_right fun all => forall₂_congr fun offset within => ?_
  have most := lost_mono lands 0 within.le
  have few := lost_le lands 0 offset
  have place : offset + (surplus.length - lost lands 0 offset) =
      surplus.length + (offset - lost lands 0 offset) := by omega
  rw [Nat.zero_add, place, List.getElem?_append_right (Nat.le_add_right _ _),
    Nat.add_sub_cancel_left]

theorem copiedLines_noNul (file : Bytes) : nul ∉ copiedLines file := by
  intro member
  obtain ⟨chunk, _, inside⟩ := List.mem_flatMap.mp member
  exact nul_notMem_cstring chunk inside

theorem flatMap_cstring_length (chunks : List Bytes) :
    (chunks.flatMap cstring).length ≤ chunks.flatten.length := by
  induction chunks with
  | nil => simp
  | cons chunk rest ih =>
      have head := (cstring_sublist chunk).length_le
      simp only [List.flatMap_cons, List.flatten_cons, List.length_append]
      omega

theorem copiedLines_length (file : Bytes) (beyond : maxOfflineLines < file.count newline) :
    (copiedLines file).length < file.length := by
  have counted := List.count_le_length (a := newline) (l := file)
  obtain ⟨extra, same⟩ := Nat.exists_eq_add_of_lt beyond
  have evicted : file.count newline - maxOfflineLines = extra + 1 := by omega
  cases chunks : readChunks file with
  | nil =>
      have whole := linesOf_flatten lineRoom file
      rw [readChunks] at chunks
      rw [chunks] at whole
      subst whole
      cases beyond
  | cons chunk rest =>
      have whole := linesOf_flatten lineRoom file
      rw [readChunks] at chunks
      have present := linesOf_nonempty lineRoom file chunk (by simp [chunks])
      rw [chunks] at whole
      have size := congrArg List.length whole
      have positive := List.length_pos_of_ne_nil present
      have copied := flatMap_cstring_length (rest.drop extra)
      rw [copiedLines, evicted, readChunks, chunks, List.drop_succ_cons]
      rw [List.flatten_cons, ← List.take_append_drop extra rest, List.flatten_append,
        List.length_append, List.length_append] at size
      omega

theorem copiedLines_fit (file : Bytes)
    (fit : LinesFit (file.count newline - maxOfflineLines) file)
    (whole : nul ∉ newestLines file) : copiedLines file = newestLines file := by
  have chunks := dropLines_chunks _ file fit (Nat.sub_le _ _)
  rw [copiedLines, chunks]
  exact flatMap_cstring lineRoom _ whole

def trimCopies (file : Option Bytes) : List Op :=
  trimLoop (countLines file - maxOfflineLines) (readChunks (file.getD []))

theorem trimOps_shape (io : TmpIo) (file : Option Bytes) :
    trimOps io file = [] ∨ maxOfflineLines < countLines file ∧
      trimOps io file = copySession .trim (trimCopies file) ++ [.rename .trim io.renames] := by
  by_cases few : countLines file ≤ maxOfflineLines
  · exact .inl (by simp [trimOps, few])
  · cases opens : io.opens with
    | false => exact .inl (by simp [trimOps, few, opens])
    | true => exact .inr ⟨not_le.mp few, by simp [trimOps, trimCopies, copySession, few, opens]⟩

theorem trim_noAppend (io : TmpIo) (file : Option Bytes) :
    ∀ op ∈ trimOps io file, ∀ payload, op ≠ .append payload := by
  intro op member
  rcases trimOps_shape io file with none | ⟨_, shape⟩
  · rw [none] at member
    cases member
  · rw [shape] at member
    rcases List.mem_append.mp member with inSession | last
    · exact (copySession_quiet .trim _ (trimLoop_copies _ _) op inSession).2
    · exact List.mem_singleton.mp last ▸ fun _ => nofun

theorem trim_commits (io : TmpIo) (steps : Nat) (disk : Disk)
    (survives : ¬ DiesFirst steps (trimOps io disk.queue)) :
    maxOfflineLines < countLines disk.queue ∧
      (perform io disk ((trimOps io disk.queue).take steps)).queue =
        some (landed (mark io.lands 0 (copiedLines (disk.queue.getD [])))) := by
  rcases trimOps_shape io disk.queue with none | ⟨many, shape⟩
  · exact absurd (by simp [DiesFirst, none]) survives
  refine ⟨many, ?_⟩
  have copies : ∀ op ∈ trimCopies disk.queue, op.copies .trim = true := trimLoop_copies _ _
  have quiet := fun op member => (copySession_quiet .trim _ copies op member).1
  rcases dies_or_commits steps _ [] (.rename .trim io.renames) quiet (by simp)
    with dies | ⟨done, more, taken⟩
  · exact absurd (shape ▸ dies) survives
  · rw [shape, taken, List.take_nil, show io.renames = true from done]
    rw [copySession, List.cons_append, List.append_assoc, List.singleton_append,
      perform_rewrite io .trim _ disk copies, trimCopies, trimLoop_bytes]
    rfl

theorem shorter_landed (io : TmpIo) (file : Bytes) (beyond : maxOfflineLines < file.count newline) :
    landed (mark io.lands 0 (copiedLines file)) ≠ file := by
  intro same
  have size := (landed_sublist (mark io.lands 0 (copiedLines file))).length_le
  rw [same, written_mark] at size
  have less := copiedLines_length file beyond
  omega

/-- The lines landed are the newest ones under the condition of `TrimSafe`. -/
theorem landed_newest_iff (io : TmpIo) (file : Bytes) :
    landed (mark io.lands 0 (copiedLines file)) = newestLines file ↔
      nul ∉ newestLines file ∧
        if LinesFit (file.count newline - maxOfflineLines) file then
          ∀ offset < (newestLines file).length, io.lands offset = true
        else SurplusLost io.lands (surplus file) (newestLines file) := by
  by_cases whole : nul ∈ newestLines file
  · refine iff_of_false (fun kept => ?_) fun safe => safe.1 whole
    rw [← kept] at whole
    have inside := (landed_sublist _).subset whole
    rw [written_mark] at inside
    exact copiedLines_noNul file inside
  · by_cases fit : LinesFit (file.count newline - maxOfflineLines) file
    · rw [if_pos fit, copiedLines_fit file fit whole, landed_mark_iff]
      simp [whole]
    · rw [if_neg fit, copiedLines_split file whole, surplusLost_iff]
      simp [whole]

theorem trim_keeps_iff (io : TmpIo) (steps : Nat) (disk : Disk) :
    TrimKeeps io steps disk ↔ TrimSafe io steps disk.queue := by
  by_cases dies : DiesFirst steps (trimOps io disk.queue)
  · refine iff_of_true (.inl ?_) (.inl dies)
    exact dies_queue io disk steps _ dies (trim_noAppend io disk.queue)
  · obtain ⟨beyond, after⟩ := trim_commits io steps disk dies
    rw [TrimKeeps, TrimSafe, after]
    cases queue : disk.queue with
    | none =>
        rw [queue] at beyond
        exact absurd beyond (by decide)
    | some file =>
        rw [queue] at beyond dies
        have differs := shorter_landed io file beyond
        simp only [Option.getD_some, Option.some.injEq, dies, false_or, differs]
        exact landed_newest_iff io file

end SensorNode.TrimRewrite
