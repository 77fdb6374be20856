import SensorNode.TrimRewrite

/-!
What `drain_offline_queue` leaves behind. The lines the server acknowledges are
dropped and the rest is copied, with no check on the writes; the loop is
followed line by line against the texts of the file, for every server, every
pattern of lost bytes and every point at which the process may die.
-/

namespace SensorNode.DrainRewrite

open LineStream LineLoss OfflineQueue TrimRewrite

universe u
variable {σ : Type u}

def acknowledged (ops : List Op) : List Bytes :=
  ops.filterMap fun op =>
    match op with
    | .send payload true => some payload
    | _ => none

/-- Successful sends matched with the file's texts in order. A send that carries
some other text acknowledges none of them. -/
def unacknowledged : List Bytes → List Bytes → List Bytes
  | [], _ => []
  | texts, [] => texts
  | text :: texts, ack :: acks =>
      if text = ack then unacknowledged texts acks else text :: texts

/-- The chunk is a line, not a piece of one longer than the read buffer. -/
def WholeLine (chunk : Bytes) (rest : List Bytes) : Prop :=
  newline ∈ chunk ∨ rest = [] ∨ rest.head? = some [newline]

instance (chunk : Bytes) (rest : List Bytes) : Decidable (WholeLine chunk rest) :=
  inferInstanceAs (Decidable (newline ∈ chunk ∨ rest = [] ∨ rest.head? = some [newline]))

section
variable (remote : Remote σ) (url : Bytes)

/-- Every line sent was read whole, and of the lines written back every byte
lands, with a newline between two of them. When the line refused is only a piece
of a longer one, the newline added behind the piece must be lost instead. -/
def LinesSurvive (lands : Nat → Bool) : σ → List Bytes → Prop
  | _, [] => True
  | state, chunk :: rest =>
      let line := chomp chunk
      if line = [] then LinesSurvive lands state rest
      else
        match sendToServer remote state line url with
        | (true, next) => WholeLine chunk rest ∧ LinesSurvive lands next rest
        | (false, _) =>
            if WholeLine chunk rest then
              Intact .fresh (mark lands 0 (line ++ newline :: rest.flatten))
            else
              lands line.length = false ∧
                Intact .fresh (mark lands 0 line ++ mark lands (line.length + 1) rest.flatten)

def DrainKeeps (io : TmpIo) (steps : Nat) (state : σ) (disk : Disk) : Prop :=
  let ops := (drainQueue remote url io state disk.queue).ops.take steps
  List.Sublist (unacknowledged (textsOf (disk.queue.getD [])) (acknowledged ops))
    (textsOf ((perform io disk ops).queue.getD []))

def DrainSafe (io : TmpIo) (steps : Nat) (state : σ) (file : Option Bytes) : Prop :=
  DiesFirst steps (drainQueue remote url io state file).ops ∨
    (nul ∉ file.getD [] ∧
      LinesSurvive remote url io.lands state (readChunks (file.getD [])))

end

theorem unacknowledged_sublist (texts acks : List Bytes) :
    List.Sublist (unacknowledged texts acks) texts := by
  induction texts generalizing acks with
  | nil => exact List.Sublist.refl []
  | cons text texts ih =>
      cases acks with
      | nil => exact List.Sublist.refl _
      | cons ack acks =>
          rw [unacknowledged]
          split
          · exact (ih acks).cons text
          · exact List.Sublist.refl _

@[simp] theorem unacknowledged_none (texts : List Bytes) : unacknowledged texts [] = texts := by
  cases texts <;> rfl

theorem unacknowledged_next (text : Bytes) (texts acks : List Bytes) :
    unacknowledged (text :: texts) (text :: acks) = unacknowledged texts acks := if_pos rfl

theorem unacknowledged_other (text ack : Bytes) (texts acks : List Bytes) (other : text ≠ ack) :
    unacknowledged (text :: texts) (ack :: acks) = text :: texts := if_neg other

/-! ## Chunks and lines -/

theorem readChunks_step (file : Bytes) (present : file ≠ []) :
    readChunks file =
      (fgets (lineRoom + 1) file).1 :: readChunks (fgets (lineRoom + 1) file).2 :=
  linesOf_step lineRoom file present

theorem readChunks_newline (rest : Bytes) :
    readChunks (newline :: rest) = [newline] :: readChunks rest := by
  rw [readChunks_step _ (List.cons_ne_nil _ _)]
  rfl

/-- How one chunk stands to the file it is read from. -/
inductive ChunkShape (file chunk rest : Bytes) : Prop where
  | line (text : Bytes) (plain : newline ∉ text) (read : chunk = text ++ [newline])
      (split : file = text ++ newline :: rest)
  | last (plain : newline ∉ chunk) (present : chunk ≠ []) (split : file = chunk)
      (ends : rest = [])
  | exact (plain : newline ∉ chunk) (present : chunk ≠ []) (more : Bytes)
      (split : file = chunk ++ rest) (ends : rest = newline :: more)
  | piece (plain : newline ∉ chunk) (present : chunk ≠ []) (byte : UInt8) (more : Bytes)
      (other : byte ≠ newline) (split : file = chunk ++ rest) (goes : rest = byte :: more)

theorem chunk_shape (file : Bytes) (present : file ≠ []) :
    ChunkShape file (fgets (lineRoom + 1) file).1 (fgets (lineRoom + 1) file).2 := by
  have whole := fgets_append (lineRoom + 1) file
  have stored : (fgets (lineRoom + 1) file).1 ≠ [] := by
    cases file with
    | nil => exact absurd rfl present
    | cons byte rest => exact fgets_nonempty lineRoom byte rest
  rcases fgets_cases (lineRoom + 1) file with ⟨text, plain, _, read⟩ | ⟨plain, _⟩
  · refine .line text plain read ?_
    rw [read, List.append_assoc] at whole
    exact whole.symm
  · cases rest : (fgets (lineRoom + 1) file).2 with
    | nil =>
        rw [rest, List.append_nil] at whole
        exact .last plain stored whole.symm rfl
    | cons byte more =>
        rw [rest] at whole
        by_cases stop : byte = newline
        · exact .exact plain stored more whole.symm (by rw [stop])
        · exact .piece plain stored byte more stop whole.symm rfl

theorem texts_piece (text more : Bytes) (byte : UInt8) (plain : newline ∉ text)
    (other : byte ≠ newline) :
    ∃ extra others, textsOf (text ++ byte :: more) = (text ++ byte :: extra) :: others := by
  obtain ⟨extra, others, same⟩ := textsFrom_head (text ++ [byte]) more (by simp)
  refine ⟨extra, others, ?_⟩
  rw [textsOf, textsFrom_append [] text _ plain, textsFrom, if_neg other, List.nil_append, same]
  simp

theorem piece_notWhole (chunk more : Bytes) (byte : UInt8) (plain : newline ∉ chunk)
    (other : byte ≠ newline) : ¬ WholeLine chunk (readChunks (byte :: more)) := by
  rw [readChunks_step _ (List.cons_ne_nil _ _)]
  have first : ∃ tail, (fgets (lineRoom + 1) (byte :: more)).1 = byte :: tail := by
    simp [fgets, other]
  obtain ⟨tail, read⟩ := first
  rw [read]
  rintro (inside | empty | next)
  · exact plain inside
  · cases empty
  · simp only [List.head?_cons, Option.some.injEq, List.cons.injEq] at next
    exact other next.1

/-! ## A newline added to a piece -/

theorem landed_newline (lands : Nat → Bool) (chunk rest : Bytes) :
    landed (mark lands 0 (chunk ++ newline :: rest)) =
      landed (mark lands 0 chunk) ++ ((if lands chunk.length then [newline] else []) ++
        landed (mark lands (chunk.length + 1) rest)) := by
  rw [mark_append, Nat.zero_add, mark]
  cases lands chunk.length <;> simp [landed]

/-- If the added newline is lost the piece and its line are one again. -/
theorem missing_newline_joins (lands : Nat → Bool) (chunk rest : Bytes)
    (added : lands chunk.length = false) :
    List.Sublist (textsOf (chunk ++ rest))
        (textsOf (landed (mark lands 0 (chunk ++ newline :: rest)))) ↔
      Intact .fresh (mark lands 0 chunk ++ mark lands (chunk.length + 1) rest) := by
  have survive := texts_survive_iff (mark lands 0 chunk ++ mark lands (chunk.length + 1) rest)
  have joined : written (mark lands 0 chunk ++ mark lands (chunk.length + 1) rest) =
      chunk ++ rest := by
    rw [written, List.map_append]
    exact congrArg₂ (· ++ ·) (written_mark lands 0 chunk) (written_mark lands _ rest)
  have kept : landed (mark lands 0 (chunk ++ newline :: rest)) =
      landed (mark lands 0 chunk ++ mark lands (chunk.length + 1) rest) := by
    rw [landed_newline, added]
    simp [landed]
  rw [joined] at survive
  rw [kept, survive]

/-- If it lands the line is not among the texts, however much else lands. -/
theorem added_newline_breaks (lands : Nat → Bool) (chunk more : Bytes) (byte : UInt8)
    (plain : newline ∉ chunk) (present : chunk ≠ []) (other : byte ≠ newline)
    (added : lands chunk.length = true) :
    ¬ List.Sublist (textsOf (chunk ++ byte :: more))
      (textsOf (landed (mark lands 0 (chunk ++ newline :: byte :: more)))) := by
  intro kept
  rw [landed_newline, added, if_pos rfl, List.singleton_append] at kept
  have front : newline ∉ landed (mark lands 0 chunk) := by
    intro member
    have inside := (landed_sublist _).subset member
    rw [written_mark] at inside
    exact plain inside
  have short := (landed_sublist (mark lands 0 chunk)).length_le
  have after := landed_textBytes (mark lands (chunk.length + 1) (byte :: more))
  rw [written_mark] at short after
  have size := List.length_pos_of_ne_nil present
  have total : ∀ tail, textBytes (landed (mark lands 0 chunk) ++ newline :: tail) =
      (landed (mark lands 0 chunk)).length + textBytes tail := by
    intro tail
    rw [textBytes_append, textBytes_newline, textBytes_plain _ front]
  -- No text byte is missing, so the texts are the same, and the piece is a text.
  have same := sublist_total _ _ kept (textsFrom_present [] _) (by
    rw [textsOf_total, textsOf_total, total, textBytes_append, textBytes_plain chunk plain]
    omega)
  have lengths := congrArg totalLength same
  rw [textsOf_total, textsOf_total, total, textBytes_append, textBytes_plain chunk plain] at lengths
  have full : landed (mark lands 0 chunk) ≠ [] := by
    intro empty
    rw [empty, List.length_nil] at lengths
    omega
  obtain ⟨extra, others, texts⟩ := texts_piece chunk more byte plain other
  rw [texts, textsOf_line _ _ front, emit_present _ full] at same
  have heads := congrArg List.length (List.cons.inj same).1
  simp only [List.length_append, List.length_cons] at heads
  omega

/-! ## What the loop writes -/

section
variable (remote : Remote σ) (url : Bytes)

theorem drainLoop_copies (state : σ) (chunks : List Bytes) :
    ∀ op ∈ (drainLoop remote url state chunks).ops, op.copies .drain = true := by
  fun_induction drainLoop remote url state chunks with
  | case1 state => simp
  | case2 state chunk rest line blank ih => exact ih
  | case3 state chunk rest line text next answer more ih =>
      exact List.forall_mem_cons.mpr ⟨rfl, ih⟩
  | case4 state chunk rest line text next answer => simp [Op.copies]

theorem drainLoop_kept (state : σ) (chunks : List Bytes)
    (empty : (drainLoop remote url state chunks).kept = 0) :
    bytesTo .drain (drainLoop remote url state chunks).ops = [] := by
  fun_induction drainLoop remote url state chunks with
  | case1 state => rfl
  | case2 state chunk rest line blank ih => exact ih empty
  | case3 state chunk rest line text next answer more ih => exact ih empty
  | case4 state chunk rest line text next answer =>
      simp only at empty
      omega

theorem refused_bytes (line : Bytes) (rest : List Bytes) :
    bytesTo .drain (.send line false :: .write .drain (line ++ [newline]) ::
        rest.map fun chunk => .write .drain (cstring chunk)) =
      line ++ newline :: rest.flatMap cstring := by
  have copied : bytesTo .drain (rest.map fun chunk => .write .drain (cstring chunk)) =
      rest.flatMap cstring := by
    induction rest with
    | nil => rfl
    | cons chunk rest ih => exact congrArg (cstring chunk ++ ·) ih
  rw [← copied]
  simp [bytesTo, Op.bytesTo]

theorem flatMap_textBytes (chunks : List Bytes) :
    textBytes (chunks.flatMap cstring) ≤ textBytes chunks.flatten := by
  induction chunks with
  | nil => exact Nat.le_refl _
  | cons chunk rest ih =>
      have head := (cstring_sublist chunk).countP_le (p := fun byte => byte != newline)
      simp only [textBytes, List.flatMap_cons, List.flatten_cons, List.countP_append] at ih ⊢
      omega

theorem drainLoop_textBytes (state : σ) (chunks : List Bytes) :
    textBytes (bytesTo .drain (drainLoop remote url state chunks).ops) ≤
      textBytes chunks.flatten := by
  have split (chunk : Bytes) (rest : List Bytes) :
      textBytes (chunk :: rest).flatten = textBytes chunk + textBytes rest.flatten := by
    simp [textBytes]
  fun_induction drainLoop remote url state chunks with
  | case1 state => exact Nat.le_refl _
  | case2 state chunk rest line blank ih =>
      rw [split]
      exact ih.trans (Nat.le_add_left _ _)
  | case3 state chunk rest line text next answer more ih =>
      rw [split]
      exact ih.trans (Nat.le_add_left _ _)
  | case4 state chunk rest line text next answer =>
      have copied := flatMap_textBytes rest
      have inside := (List.takeWhile_sublist (l := chunk)
        fun byte => byte != newline && byte != nul).countP_le (p := fun byte => byte != newline)
      rw [split, refused_bytes]
      simp only [textBytes, List.countP_append, List.countP_cons, bne_self_eq_false,
        Bool.false_eq_true, ↓reduceIte, Nat.add_zero] at copied inside ⊢
      exact Nat.add_le_add inside copied

/-- Neither a payload sent nor the file left behind holds a NUL. -/
theorem drainLoop_noNul (state : σ) (chunks : List Bytes) :
    nul ∉ bytesTo .drain (drainLoop remote url state chunks).ops ∧
      ∀ text ∈ acknowledged (drainLoop remote url state chunks).ops, nul ∉ text := by
  fun_induction drainLoop remote url state chunks with
  | case1 state => simp [bytesTo, acknowledged]
  | case2 state chunk rest line blank ih => exact ih
  | case3 state chunk rest line text next answer more ih =>
      exact ⟨ih.1, List.forall_mem_cons.mpr ⟨(chomp_clean chunk).2, ih.2⟩⟩
  | case4 state chunk rest line text next answer =>
      constructor
      · have copied : nul ∉ rest.flatMap cstring := by
          intro member
          obtain ⟨other, _, inside⟩ := List.mem_flatMap.mp member
          exact nul_notMem_cstring other inside
        rw [refused_bytes]
        intro member
        rcases List.mem_append.mp member with inLine | later
        · exact (chomp_clean chunk).2 inLine
        · rcases List.mem_cons.mp later with same | inCopy
          · cases same
          · exact copied inCopy
      · intro other member
        simp [acknowledged] at member

/-! ## The loop, line by line -/

/-- The texts the loop leaves unacknowledged are texts of the file it writes. -/
def LoopKeeps (lands : Nat → Bool) (state : σ) (file : Bytes) : Prop :=
  let ops := (drainLoop remote url state (readChunks file)).ops
  List.Sublist (unacknowledged (textsOf file) (acknowledged ops))
    (textsOf (landed (mark lands 0 (bytesTo .drain ops))))

theorem loop_textBytes (lands : Nat → Bool) (state : σ) (file : Bytes) :
    totalLength (textsOf (landed (mark lands 0
      (bytesTo .drain (drainLoop remote url state (readChunks file)).ops)))) ≤ textBytes file := by
  rw [textsOf_total]
  calc textBytes (landed (mark lands 0
        (bytesTo .drain (drainLoop remote url state (readChunks file)).ops)))
      ≤ textBytes (bytesTo .drain (drainLoop remote url state (readChunks file)).ops) := by
        have fewer := landed_textBytes (mark lands 0
          (bytesTo .drain (drainLoop remote url state (readChunks file)).ops))
        rwa [written_mark] at fewer
    _ ≤ textBytes (readChunks file).flatten := drainLoop_textBytes remote url state _
    _ = textBytes file := by rw [readChunks, linesOf_flatten]

end
section
variable (remote : Remote σ) (url : Bytes) (lands : Nat → Bool) (state : σ)

section
variable (chunk : Bytes) (rest : List Bytes)

theorem drainLoop_blank (blank : chomp chunk = []) :
    drainLoop remote url state (chunk :: rest) = drainLoop remote url state rest := by
  simp [drainLoop, blank]

theorem drainLoop_acked (next : σ) (text : chomp chunk ≠ [])
    (answer : sendToServer remote state (chomp chunk) url = (true, next)) :
    (drainLoop remote url state (chunk :: rest)).ops =
      .send (chomp chunk) true :: (drainLoop remote url next rest).ops := by
  simp [drainLoop, text, answer]

theorem drainLoop_refused (next : σ) (text : chomp chunk ≠ [])
    (answer : sendToServer remote state (chomp chunk) url = (false, next)) :
    (drainLoop remote url state (chunk :: rest)).ops =
      .send (chomp chunk) false :: .write .drain (chomp chunk ++ [newline]) ::
        rest.map fun chunk => .write .drain (cstring chunk) := by
  simp [drainLoop, text, answer]

theorem linesSurvive_blank (blank : chomp chunk = []) :
    LinesSurvive remote url lands state (chunk :: rest) ↔
      LinesSurvive remote url lands state rest := by
  simp [LinesSurvive, blank]

theorem linesSurvive_acked (next : σ) (text : chomp chunk ≠ [])
    (answer : sendToServer remote state (chomp chunk) url = (true, next)) :
    LinesSurvive remote url lands state (chunk :: rest) ↔
      WholeLine chunk rest ∧ LinesSurvive remote url lands next rest := by
  simp [LinesSurvive, text, answer]

theorem linesSurvive_refused (next : σ) (text : chomp chunk ≠ [])
    (answer : sendToServer remote state (chomp chunk) url = (false, next)) :
    LinesSurvive remote url lands state (chunk :: rest) ↔
      if WholeLine chunk rest then
        Intact .fresh (mark lands 0 (chomp chunk ++ newline :: rest.flatten))
      else lands (chomp chunk).length = false ∧
        Intact .fresh (mark lands 0 (chomp chunk) ++
          mark lands ((chomp chunk).length + 1) rest.flatten) := by
  simp [LinesSurvive, text, answer]

end

section
variable (file chunk rest : Bytes) (read : readChunks file = chunk :: readChunks rest)
include read

theorem loop_blank (blank : chomp chunk = []) (texts : textsOf file = textsOf rest) :
    LoopKeeps remote url lands state file ↔ LoopKeeps remote url lands state rest := by
  rw [LoopKeeps, LoopKeeps, read, drainLoop_blank remote url state chunk _ blank, texts]

theorem loop_acked (next : σ) (text : chomp chunk ≠ [])
    (answer : sendToServer remote state (chomp chunk) url = (true, next))
    (texts : textsOf file = chomp chunk :: textsOf rest) :
    LoopKeeps remote url lands state file ↔ LoopKeeps remote url lands next rest := by
  rw [LoopKeeps, LoopKeeps, read, drainLoop_acked remote url state chunk _ next text answer, texts]
  simp only [acknowledged, List.filterMap_cons, unacknowledged_next]
  rfl

theorem loop_refused (next : σ) (text : chomp chunk ≠ [])
    (answer : sendToServer remote state (chomp chunk) url = (false, next)) (whole : nul ∉ rest) :
    LoopKeeps remote url lands state file ↔
      List.Sublist (textsOf file)
        (textsOf (landed (mark lands 0 (chomp chunk ++ newline :: rest)))) := by
  have copied : (readChunks rest).flatMap cstring = rest := flatMap_cstring lineRoom rest whole
  have silent : acknowledged (.send (chomp chunk) false ::
      .write .drain (chomp chunk ++ [newline]) ::
        (readChunks rest).map fun chunk => .write .drain (cstring chunk)) = [] := by
    simp [acknowledged]
  rw [LoopKeeps, read, drainLoop_refused remote url state chunk _ next text answer]
  rw [silent, unacknowledged_none, refused_bytes, copied]

/-- A line sent whole: the loop goes on, or what it writes has the file's texts. -/
theorem loop_whole (text : chomp chunk ≠ []) (whole : nul ∉ rest)
    (line : WholeLine chunk (readChunks rest))
    (texts : textsOf file = chomp chunk :: textsOf rest)
    (later : ∀ next, LoopKeeps remote url lands next rest ↔
      LinesSurvive remote url lands next (readChunks rest)) :
    LoopKeeps remote url lands state file ↔
      LinesSurvive remote url lands state (chunk :: readChunks rest) := by
  rcases answer : sendToServer remote state (chomp chunk) url with ⟨acked, next⟩
  cases acked with
  | true =>
      rw [loop_acked remote url lands state file chunk rest read next text answer texts,
        linesSurvive_acked remote url lands state chunk _ next text answer, later next]
      simp [line]
  | false =>
      have clean := chomp_clean chunk
      have same : textsOf file = textsOf (chomp chunk ++ newline :: rest) := by
        rw [texts, textsOf_line _ _ clean.1, emit_present _ text]
        rfl
      have flat : (readChunks rest).flatten = rest := linesOf_flatten lineRoom rest
      have survive := texts_survive_iff (mark lands 0 (chomp chunk ++ newline :: rest))
      rw [written_mark] at survive
      rw [loop_refused remote url lands state file chunk rest read next text answer whole,
        linesSurvive_refused remote url lands state chunk _ next text answer, if_pos line, flat,
        same, survive]

theorem loop_piece_acked (next : σ) (plain : newline ∉ chunk) (text : chomp chunk ≠ [])
    (split : file = chunk ++ rest)
    (answer : sendToServer remote state (chomp chunk) url = (true, next))
    (longer : ∃ first others, textsOf file = first :: others ∧ first ≠ chomp chunk) :
    ¬ LoopKeeps remote url lands state file := by
  intro kept
  obtain ⟨first, others, texts, differs⟩ := longer
  rw [LoopKeeps, read, drainLoop_acked remote url state chunk _ next text answer] at kept
  simp only [acknowledged, List.filterMap_cons] at kept
  rw [texts, unacknowledged_other _ _ _ _ differs, ← texts] at kept
  -- All texts of the file would have to come from what follows the piece.
  have shorter := totalLength_sublist _ _ kept
  have left := loop_textBytes remote url lands next rest
  have size : 0 < chunk.length := by
    apply List.length_pos_of_ne_nil
    rintro rfl
    exact text rfl
  rw [textsOf_total, split, textBytes_append, textBytes_plain chunk plain] at shorter
  exact absurd (shorter.trans left) (by omega)

/-- A piece of a longer line: the line is lost once the piece is acknowledged,
and broken in two by the newline added when it is refused. -/
theorem loop_piece (byte : UInt8) (more : Bytes) (plain : newline ∉ chunk) (present : chunk ≠ [])
    (other : byte ≠ newline) (split : file = chunk ++ rest) (goes : rest = byte :: more)
    (whole : nul ∉ file) :
    LoopKeeps remote url lands state file ↔
      LinesSurvive remote url lands state (chunk :: readChunks rest) := by
  have clean : nul ∉ chunk ∧ nul ∉ rest := by
    rw [split] at whole
    exact ⟨fun member => whole (List.mem_append_left _ member),
      fun member => whole (List.mem_append_right _ member)⟩
  have line : chomp chunk = chunk := chomp_self chunk plain clean.1
  have text : chomp chunk ≠ [] := line.symm ▸ present
  have broken : ¬ WholeLine chunk (readChunks rest) :=
    goes ▸ piece_notWhole chunk more byte plain other
  rcases answer : sendToServer remote state (chomp chunk) url with ⟨acked, next⟩
  cases acked with
  | true =>
      rw [linesSurvive_acked remote url lands state chunk _ next text answer]
      refine iff_of_false ?_ fun survive => broken survive.1
      apply loop_piece_acked remote url lands state file chunk rest read next plain text split
        answer
      obtain ⟨extra, others, texts⟩ := texts_piece chunk more byte plain other
      exact ⟨_, others, by rw [split, goes, texts], by simp [line]⟩
  | false =>
      have flat : (readChunks rest).flatten = rest := linesOf_flatten lineRoom rest
      rw [loop_refused remote url lands state file chunk rest read next text answer clean.2,
        linesSurvive_refused remote url lands state chunk _ next text answer, if_neg broken, flat,
        line, split]
      cases added : lands chunk.length with
      | false =>
          rw [missing_newline_joins lands chunk rest added]
          simp
      | true =>
          refine iff_of_false ?_ fun survive => by cases survive.1
          rw [goes]
          exact added_newline_breaks lands chunk more byte plain present other added

end

theorem loop_keeps_iff (file : Bytes) (whole : nul ∉ file) :
    LoopKeeps remote url lands state file ↔
      LinesSurvive remote url lands state (readChunks file) := by
  -- By induction on the pieces that `fgets` reads, by how each stands to its line.
  induction file using stream_induction lineRoom generalizing state with
  | nil => simp [LoopKeeps, readChunks, LinesSurvive, drainLoop, acknowledged]
  | line file present ih =>
      have read := readChunks_step file present
      have clean : nul ∉ (fgets (lineRoom + 1) file).2 := by
        intro member
        have split := fgets_append (lineRoom + 1) file
        exact whole (split ▸ List.mem_append_right _ member)
      have later (next : σ) := ih next clean
      rw [read]
      cases chunk_shape file present with
      | line text plain chunk split =>
          have noNul : nul ∉ text := fun member => whole (split ▸ List.mem_append_left _ member)
          have line : chomp (fgets (lineRoom + 1) file).1 = text := by
            rw [chunk, chomp_line text plain noNul]
          have texts : textsOf file = emit text ++ textsOf (fgets (lineRoom + 1) file).2 := by
            conv_lhs => rw [split]
            exact textsOf_line text _ plain
          by_cases blank : text = []
          · rw [linesSurvive_blank remote url lands state _ _ (line.trans blank),
              loop_blank remote url lands state _ _ _ read (line.trans blank)
                (by rw [texts, blank]; rfl), later]
          · apply loop_whole remote url lands state _ _ _ read (line ▸ blank) clean _ _ later
            -- A line with its newline.
            · exact .inl (by simp [chunk])
            · rw [texts, line, emit_present text blank]
              rfl
      | last plain stored split ends =>
          have line := chomp_self _ plain fun member => whole (split ▸ member)
          apply loop_whole remote url lands state _ _ _ read (line.symm ▸ stored) clean _ _ later
          · exact .inr (.inl (by rw [ends]; rfl))
          · rw [line, ends]
            conv_lhs => rw [split, textsOf_last _ plain, emit_present _ stored]
            rfl
      | exact plain stored more split ends =>
          have noNul : nul ∉ (fgets (lineRoom + 1) file).1 := fun member =>
            whole (split ▸ List.mem_append_left _ member)
          have line := chomp_self _ plain noNul
          apply loop_whole remote url lands state _ _ _ read (line.symm ▸ stored) clean _ _ later
          · refine .inr (.inr ?_)
            rw [ends, readChunks_newline]
            rfl
          · conv_lhs => rw [split, ends, textsOf_line _ _ plain, emit_present _ stored]
            rw [line, ends]
            rfl
      | piece plain stored byte more other split goes =>
          exact loop_piece remote url lands state _ _ _ read byte more plain stored other split
            goes whole

end

/-! ## The whole rewrite -/

theorem unacknowledged_nul (texts acks : List Bytes) (text : Bytes) (member : text ∈ texts)
    (inside : nul ∈ text) (clean : ∀ ack ∈ acks, nul ∉ ack) :
    text ∈ unacknowledged texts acks := by
  induction texts generalizing acks with
  | nil => cases member
  | cons first rest ih =>
      cases acks with
      | nil => exact member
      | cons ack acks =>
          obtain ⟨head, tail⟩ := List.forall_mem_cons.mp clean
          by_cases same : first = ack
          · subst same
            rw [unacknowledged_next]
            rcases List.mem_cons.mp member with isFirst | later
            · exact absurd (isFirst ▸ inside) head
            · exact ih acks later tail
          · rw [unacknowledged_other _ _ _ _ same]
            exact member

section
variable (remote : Remote σ) (url : Bytes) (io : TmpIo) (state : σ)

/-- A NUL in the file is in a line that is neither sent nor written back. -/
theorem loop_nul (file : Bytes) (dirty : nul ∈ file) :
    ¬ LoopKeeps remote url io.lands state file := by
  intro kept
  obtain ⟨written, acks⟩ := drainLoop_noNul remote url state (readChunks file)
  obtain ⟨text, member, inside⟩ :=
    (mem_textsFrom [] file nul (by decide)).mpr (.inr dirty)
  have after := kept.subset (unacknowledged_nul _ _ text member inside acks)
  rcases (mem_textsFrom [] _ nul (by decide)).mp ⟨text, after, inside⟩ with open_ | landed
  · cases open_
  · have copied := (landed_sublist _).subset landed
    rw [written_mark] at copied
    exact written copied

theorem drainQueue_shape (file : Option Bytes) :
    (drainQueue remote url io state file).ops = [] ∨
      let loop := drainLoop remote url state (readChunks (file.getD []))
      (drainQueue remote url io state file).ops = copySession .drain loop.ops ++
        if loop.kept = 0 then [.unlinkQueue, .unlinkTmp .drain]
        else [.rename .drain io.renames] := by
  cases file with
  | none => exact .inl rfl
  | some file =>
      cases opens : io.opens with
      | false => exact .inl (by simp [drainQueue, opens])
      | true => exact .inr (by simp [drainQueue, copySession, opens])

theorem drain_noAppend (file : Option Bytes) :
    ∀ op ∈ (drainQueue remote url io state file).ops, ∀ payload, op ≠ .append payload := by
  intro op member
  rcases drainQueue_shape remote url io state file with none | shape
  · rw [none] at member
    cases member
  · rw [shape] at member
    rcases List.mem_append.mp member with inSession | last
    · exact (copySession_quiet .drain _ (drainLoop_copies remote url state _) op inSession).2
    · split at last
      · simp only [List.mem_cons, List.not_mem_nil, or_false] at last
        rcases last with same | same <;> exact same ▸ fun _ => nofun
      · exact List.mem_singleton.mp last ▸ fun _ => nofun

theorem acknowledged_session (ops after : List Op) (none : acknowledged after = []) :
    acknowledged (copySession .drain ops ++ after) = acknowledged ops := by
  have shape : acknowledged (copySession .drain ops ++ after) =
      acknowledged ops ++ acknowledged after := by
    simp [acknowledged, copySession, List.filterMap_append]
  rw [shape, none, List.append_nil]

section
variable (steps : Nat) (disk : Disk)
  (survives : ¬ DiesFirst steps (drainQueue remote url io state disk.queue).ops)
include survives

theorem drain_unlinks
    (empty : (drainLoop remote url state (readChunks (disk.queue.getD []))).kept = 0)
    (shape : (drainQueue remote url io state disk.queue).ops =
      copySession .drain (drainLoop remote url state (readChunks (disk.queue.getD []))).ops ++
        .unlinkQueue :: [.unlinkTmp .drain]) :
    DrainKeeps remote url io steps state disk ↔
      LoopKeeps remote url io.lands state (disk.queue.getD []) := by
  have copies := drainLoop_copies remote url state (readChunks (disk.queue.getD []))
  have quiet := fun op member => (copySession_quiet .drain _ copies op member).1
  rcases dies_or_commits steps _ [.unlinkTmp .drain] .unlinkQueue quiet (by simp [Op.commits])
    with dies | ⟨_, more, taken⟩
  · exact absurd (shape ▸ dies) survives
  · have after : (perform io disk (copySession .drain
        (drainLoop remote url state (readChunks (disk.queue.getD []))).ops ++
          .unlinkQueue :: [Op.unlinkTmp .drain].take more)).queue = none := by
      rw [perform_append, perform_cons, perform_spares]
      · rfl
      · intro op member
        exact List.mem_singleton.mp (List.mem_of_mem_take member) ▸ rfl
    have none : acknowledged (.unlinkQueue :: [Op.unlinkTmp .drain].take more) = [] := by
      cases more <;> simp [acknowledged]
    rw [DrainKeeps, shape, taken, acknowledged_session _ _ none, after, LoopKeeps,
      drainLoop_kept remote url state _ empty]
    rfl

theorem drain_renames
    (shape : (drainQueue remote url io state disk.queue).ops =
      copySession .drain (drainLoop remote url state (readChunks (disk.queue.getD []))).ops ++
        .rename .drain io.renames :: []) :
    DrainKeeps remote url io steps state disk ↔
      LoopKeeps remote url io.lands state (disk.queue.getD []) := by
  have copies := drainLoop_copies remote url state (readChunks (disk.queue.getD []))
  have quiet := fun op member => (copySession_quiet .drain _ copies op member).1
  rcases dies_or_commits steps _ [] (.rename .drain io.renames) quiet (by simp)
    with dies | ⟨done, more, taken⟩
  · exact absurd (shape ▸ dies) survives
  · have renames : io.renames = true := done
    have after : (perform io disk (copySession .drain
        (drainLoop remote url state (readChunks (disk.queue.getD []))).ops ++
          [.rename .drain true])).queue = some (landed (mark io.lands 0 (bytesTo .drain
            (drainLoop remote url state (readChunks (disk.queue.getD []))).ops))) := by
      rw [copySession, List.cons_append, List.append_assoc, List.singleton_append,
        perform_rewrite io .drain _ disk copies]
    rw [DrainKeeps, shape, taken, List.take_nil, renames, acknowledged_session _ _ rfl, after]
    rfl

/-- Past the commit the file is what the loop wrote, removed if it wrote nothing. -/
theorem drain_commits :
    DrainKeeps remote url io steps state disk ↔
      LoopKeeps remote url io.lands state (disk.queue.getD []) := by
  rcases drainQueue_shape remote url io state disk.queue with none | shape
  · exact absurd (by simp [DiesFirst, none]) survives
  · simp only at shape
    by_cases empty : (drainLoop remote url state (readChunks (disk.queue.getD []))).kept = 0
    · rw [if_pos empty] at shape
      exact drain_unlinks remote url io state steps disk survives empty shape
    · rw [if_neg empty] at shape
      exact drain_renames remote url io state steps disk survives shape

end

/-- With no fault the file a drain leaves is what its loop wrote. -/
theorem drainQueue_file (disk : Disk) (file : Bytes) :
    (perform .good disk (drainQueue remote url .good state (some file)).ops).queue.getD [] =
      bytesTo .drain (drainLoop remote url state (readChunks file)).ops := by
  have copies := drainLoop_copies remote url state (readChunks file)
  by_cases empty : (drainLoop remote url state (readChunks file)).kept = 0
  · rw [drainLoop_kept remote url state _ empty]
    simp [drainQueue, TmpIo.good, empty, perform_append, effect]
  · have rewritten := perform_rewrite .good .drain _ disk copies
    simp only [drainQueue, TmpIo.good, ↓reduceIte, empty] at rewritten ⊢
    rw [rewritten]
    exact landed_mark_all 0 _

theorem drain_keeps_iff (steps : Nat) (disk : Disk) :
    DrainKeeps remote url io steps state disk ↔
      DrainSafe remote url io steps state disk.queue := by
  by_cases dies : DiesFirst steps (drainQueue remote url io state disk.queue).ops
  · refine iff_of_true ?_ (.inl dies)
    have same := dies_queue io disk steps _ dies (drain_noAppend remote url io state disk.queue)
    rw [DrainKeeps, same]
    exact unacknowledged_sublist _ _
  · rw [drain_commits remote url io state steps disk dies, DrainSafe]
    simp only [dies, false_or]
    by_cases dirty : nul ∈ disk.queue.getD []
    · exact iff_of_false (loop_nul remote url io state _ dirty) fun safe => safe.1 dirty
    · simp [dirty, loop_keeps_iff remote url io.lands state _ dirty]

end

/-- A rewrite preserves the unsent payloads exactly under these conditions on the
file, the bytes that land and the point at which the process dies. -/
theorem rewrite_keeps_iff (remote : Remote σ) (url : Bytes) (io : TmpIo) (steps : Nat)
    (state : σ) (disk : Disk) :
    (TrimKeeps io steps disk ↔ TrimSafe io steps disk.queue) ∧
      (DrainKeeps remote url io steps state disk ↔
        DrainSafe remote url io steps state disk.queue) :=
  ⟨trim_keeps_iff io steps disk, drain_keeps_iff remote url io state steps disk⟩

/-- A disk too full to take the copy, a server that refuses: the queue file is
replaced by an empty one. -/
theorem full_disk_loses_queue :
    ¬ (TrimKeeps ⟨true, true, fun _ => false⟩ 6 ⟨some (ascii "a\n"), none, none⟩ ∧
      DrainKeeps ⟨fun _ => none, fun state _ => (.status 503, state)⟩ (ascii "http://server/data")
        ⟨true, true, fun _ => false⟩ 6 () ⟨some (ascii "a\n"), none, none⟩) := by
  rintro ⟨_, kept⟩
  revert kept
  unfold DrainKeeps
  decide +kernel

end SensorNode.DrainRewrite
