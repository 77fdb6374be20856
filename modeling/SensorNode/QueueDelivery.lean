import SensorNode.DrainRewrite
import SensorNode.PayloadText

/-!
What the offline queue delivers when no file operation fails. On a file that
holds one payload per line, draining is delivering a list of payloads up to the
first one refused. From it follow the round trip of stored payloads, which needs
every payload to be one line, and what a refused payload does to those behind it.
-/

namespace SensorNode.QueueDelivery

open LineStream LineLoss OfflineQueue TrimRewrite DrainRewrite ReadingStore PayloadText

universe u
variable {σ : Type u}

/-! ## What a log shows -/

/-- The payloads of all sends, in order. -/
def sentTexts (ops : List Op) : List Bytes :=
  ops.filterMap fun op =>
    match op with
    | .send payload _ => some payload
    | _ => none

/-- The lines passed over by `trim_offline_queue`. -/
def evictedLines (ops : List Op) : List Bytes :=
  ops.filterMap fun op =>
    match op with
    | .skip line => some line
    | _ => none

def droppedTexts (ops : List Op) : List Bytes :=
  ops.filterMap fun op =>
    match op with
    | .drop payload => some payload
    | _ => none

/-- Neither an eviction nor a dropped payload. -/
def routine : Op → Bool
  | .skip _ | .drop _ => false
  | _ => true

/-- What a log gained: payloads acknowledged, lines evicted, payloads dropped. -/
structure LogGrows (before after : List Op) (acked evicted dropped : List Bytes) : Prop where
  acked : acknowledged after = acknowledged before ++ acked
  evicted : evictedLines after = evictedLines before ++ evicted
  dropped : droppedTexts after = droppedTexts before ++ dropped

section
variable (left right : List Op)

theorem sentTexts_append : sentTexts (left ++ right) = sentTexts left ++ sentTexts right :=
  List.filterMap_append

theorem acknowledged_append :
    acknowledged (left ++ right) = acknowledged left ++ acknowledged right :=
  List.filterMap_append

theorem evictedLines_append :
    evictedLines (left ++ right) = evictedLines left ++ evictedLines right :=
  List.filterMap_append

theorem droppedTexts_append :
    droppedTexts (left ++ right) = droppedTexts left ++ droppedTexts right :=
  List.filterMap_append

theorem logGrows_append :
    LogGrows left (left ++ right) (acknowledged right) (evictedLines right)
      (droppedTexts right) :=
  ⟨acknowledged_append left right, evictedLines_append left right,
    droppedTexts_append left right⟩

end

theorem logGrows_refl (log : List Op) : LogGrows log log [] [] [] := by
  constructor <;> rw [List.append_nil]

theorem LogGrows.trans {first second third : List Op}
    {acked evicted dropped acked' evicted' dropped' : List Bytes}
    (left : LogGrows first second acked evicted dropped)
    (right : LogGrows second third acked' evicted' dropped') :
    LogGrows first third (acked ++ acked') (evicted ++ evicted') (dropped ++ dropped') := by
  constructor
  · rw [right.acked, left.acked, List.append_assoc]
  · rw [right.evicted, left.evicted, List.append_assoc]
  · rw [right.dropped, left.dropped, List.append_assoc]

theorem routine_log (ops : List Op) (routine : ∀ op ∈ ops, routine op = true) :
    evictedLines ops = [] ∧ droppedTexts ops = [] := by
  constructor <;>
  · apply List.filterMap_eq_nil_iff.mpr
    intro op member
    have ordinary := routine op member
    cases op <;> first | rfl | cases ordinary

theorem sentTexts_session (tmp : TmpFile) (ops after : List Op) (none : sentTexts after = []) :
    sentTexts (copySession tmp ops ++ after) = sentTexts ops := by
  have shape : sentTexts (copySession tmp ops ++ after) = sentTexts ops ++ sentTexts after := by
    simp [sentTexts, copySession, List.filterMap_append]
  rw [shape, none, List.append_nil]

section
variable (empty : Prop) [Decidable empty] (renames : Bool)

/-- A drain ends in file operations only, whether or not it kept a line. -/
theorem closing_routine :
    ∀ op ∈ (if empty then [.unlinkQueue, .unlinkTmp .drain] else [.rename .drain renames]),
      routine op = true := by
  split <;> simp [routine]

theorem closing_silent :
    let closing := if empty then [.unlinkQueue, .unlinkTmp .drain] else [.rename .drain renames]
    acknowledged closing = [] ∧ sentTexts closing = [] := by
  dsimp only
  split <;> exact ⟨rfl, rfl⟩

end

/-! ## Files of one payload per line -/

/-- A payload that survives on a line: what the queue file is meant to hold. -/
def Line (text : Bytes) : Prop :=
  newline ∉ text ∧ nul ∉ text ∧ text ≠ [] ∧ text.length ≤ lineRoom

theorem readChunks_framed (texts : List Bytes) (lines : ∀ text ∈ texts, Line text) :
    readChunks (framed texts) = texts.map fun text => text ++ [newline] := by
  have carried := linesOf_framed lineRoom texts [] fun text member =>
    ⟨(lines text member).1, (lines text member).2.2.2⟩
  simpa [readChunks] using carried

theorem framed_noNul (texts : List Bytes) (lines : ∀ text ∈ texts, Line text) :
    nul ∉ framed texts := by
  intro member
  obtain ⟨text, inTexts, inside⟩ := List.mem_flatMap.mp member
  rcases List.mem_append.mp inside with inText | isNewline
  · exact (lines text inTexts).2.1 inText
  · exact absurd (List.mem_singleton.mp isNewline) (by decide)

theorem framed_count (texts : List Bytes) (lines : ∀ text ∈ texts, newline ∉ text) :
    (framed texts).count newline = texts.length := by
  induction texts with
  | nil => rfl
  | cons text texts ih =>
      obtain ⟨head, tail⟩ := List.forall_mem_cons.mp lines
      rw [framed_cons, List.count_append, List.count_eq_zero_of_not_mem head,
        List.count_cons_self, ih tail, List.length_cons, Nat.zero_add]

/-! ## Draining such a file -/

section
variable (remote : Remote σ) (url : Bytes)

/-- How many payloads are acknowledged before the first refusal. -/
def deliver : σ → List Bytes → Nat × σ
  | state, [] => (0, state)
  | state, text :: rest =>
      match sendToServer remote state text url with
      | (true, next) => ((deliver next rest).1 + 1, (deliver next rest).2)
      | (false, next) => (0, next)

/-- The sends of a drain: every acknowledged payload and then one refusal, if
any payload is left. -/
def deliveries (texts : List Bytes) (acked : Nat) : List Op :=
  (texts.take acked).map (Op.send · true) ++ ((texts.drop acked).head?.map (Op.send · false)).toList

theorem drainLoop_lines (texts : List Bytes) (state : σ) (lines : ∀ text ∈ texts, Line text) :
    let loop := drainLoop remote url state (texts.map fun text => text ++ [newline])
    let acked := (deliver remote url state texts).1
    loop.kept = (texts.drop acked).length ∧
      loop.remote = (deliver remote url state texts).2 ∧
      loop.ops = deliveries texts acked ++
        (texts.drop acked).map fun text => .write .drain (text ++ [newline]) := by
  induction texts generalizing state with
  | nil => exact ⟨rfl, rfl, rfl⟩
  | cons text texts ih =>
      obtain ⟨⟨plain, whole, present, _⟩, tail⟩ := List.forall_mem_cons.mp lines
      have line : chomp (text ++ [newline]) = text := chomp_line text plain whole
      have copied (others : List Bytes) (clean : ∀ text ∈ others, Line text) :
          (others.map fun text => text ++ [newline]).map
            (fun chunk => Op.write .drain (cstring chunk)) =
              others.map fun text => .write .drain (text ++ [newline]) := by
        rw [List.map_map]
        apply List.map_congr_left
        intro other member
        have noNul : nul ∉ other ++ [newline] := by
          intro inside
          rcases List.mem_append.mp inside with inText | isNewline
          · exact (clean other member).2.1 inText
          · exact absurd (List.mem_singleton.mp isNewline) (by decide)
        simp [cstring_self _ noNul]
      rcases answer : sendToServer remote state text url with ⟨acked, next⟩
      cases acked with
      | true =>
          obtain ⟨kept, rest, ops⟩ := ih next tail
          simp only [List.map_cons, drainLoop, line, present, ↓reduceIte, answer, deliver]
          refine ⟨by simpa using kept, rest, ?_⟩
          rw [ops]
          simp [deliveries]
      | false =>
          simp only [List.map_cons, drainLoop, line, present, ↓reduceIte, answer, deliver]
          -- The refused line and all behind it are copied back, each as it was read.
          refine ⟨by simp [Nat.add_comm], trivial, ?_⟩
          rw [copied texts tail]
          simp [deliveries]

theorem mem_deliveries (texts : List Bytes) (acked : Nat) (op : Op)
    (member : op ∈ deliveries texts acked) : ∃ text acked, op = .send text acked := by
  rcases List.mem_append.mp member with inAcked | refused
  · obtain ⟨text, _, same⟩ := List.mem_map.mp inAcked
    exact ⟨text, true, same.symm⟩
  · simp only [Option.mem_toList, Option.map_eq_some_iff] at refused
    obtain ⟨text, _, same⟩ := refused
    exact ⟨text, false, same.symm⟩

theorem bytesTo_lines (texts kept : List Bytes) (acked : Nat) :
    bytesTo .drain (deliveries texts acked ++
      kept.map fun text => .write .drain (text ++ [newline])) = framed kept := by
  have silent : (deliveries texts acked).flatMap (Op.bytesTo .drain) = [] := by
    apply List.flatMap_eq_nil_iff.mpr
    intro op member
    obtain ⟨text, answer, same⟩ := mem_deliveries texts acked op member
    exact same ▸ rfl
  rw [bytesTo, List.flatMap_append, silent, List.nil_append, List.flatMap_map]
  rfl

theorem acknowledged_deliveries (texts : List Bytes) (acked : Nat) :
    acknowledged (deliveries texts acked) = texts.take acked := by
  have sent (others : List Bytes) : acknowledged (others.map (Op.send · true)) = others := by
    simp [acknowledged, List.filterMap_map]
  have refused : acknowledged ((texts.drop acked).head?.map (Op.send · false)).toList = [] := by
    cases (texts.drop acked).head? <;> rfl
  rw [deliveries, acknowledged_append, sent, refused, List.append_nil]

theorem sentTexts_deliveries (texts : List Bytes) (acked : Nat) :
    sentTexts (deliveries texts acked) = texts.take (acked + 1) := by
  have sent (others : List Bytes) : sentTexts (others.map (Op.send · true)) = others := by
    simp [sentTexts, List.filterMap_map]
  have refused : sentTexts ((texts.drop acked).head?.map (Op.send · false)).toList =
      (texts.drop acked).head?.toList := by
    cases (texts.drop acked).head? <;> rfl
  rw [deliveries, sentTexts_append, sent, refused, List.head?_drop, List.take_add_one]

/-- The operations of a drain of payload lines: the sends, then the rewrite. -/
def drainLines (texts : List Bytes) (acked : Nat) : List Op :=
  .openTmp .drain :: (deliveries texts acked ++
    ((texts.drop acked).map fun text => .write .drain (text ++ [newline])) ++
      .closeTmp .drain ::
        if texts.drop acked = [] then [.unlinkQueue, .unlinkTmp .drain]
        else [.rename .drain true])

theorem drainQueue_lines (texts : List Bytes) (state : σ) (lines : ∀ text ∈ texts, Line text) :
    let drained := drainQueue remote url .good state (some (framed texts))
    drained.remote = (deliver remote url state texts).2 ∧
      drained.ops = drainLines texts (deliver remote url state texts).1 := by
  obtain ⟨kept, rest, ops⟩ := drainLoop_lines remote url texts state lines
  simp only [drainQueue, readChunks_framed texts lines, TmpIo.good, ↓reduceIte, kept, rest, ops,
    List.length_eq_zero_iff]
  exact ⟨trivial, rfl⟩

theorem drainLines_log (texts : List Bytes) (acked : Nat) :
    acknowledged (drainLines texts acked) = texts.take acked ∧
      sentTexts (drainLines texts acked) = texts.take (acked + 1) ∧
      evictedLines (drainLines texts acked) = [] ∧ droppedTexts (drainLines texts acked) = [] := by
  have session : drainLines texts acked = copySession .drain (deliveries texts acked ++
      (texts.drop acked).map fun text => .write .drain (text ++ [newline])) ++
        if texts.drop acked = [] then [.unlinkQueue, .unlinkTmp .drain]
        else [.rename .drain true] := by
    simp [drainLines, copySession]
  have quiet : ∀ op ∈ drainLines texts acked, routine op = true := by
    intro op member
    rw [drainLines, List.append_assoc] at member
    rcases List.mem_cons.mp member with opening | later
    · exact opening ▸ rfl
    · rcases List.mem_append.mp later with sent | rest
      · obtain ⟨text, answer, same⟩ := mem_deliveries texts acked op sent
        exact same ▸ rfl
      · rcases List.mem_append.mp rest with written | closing
        · obtain ⟨text, _, same⟩ := List.mem_map.mp written
          exact same ▸ rfl
        · rcases List.mem_cons.mp closing with close | commit
          · exact close ▸ rfl
          · exact closing_routine _ _ op commit
  have written (kept : List Bytes) :
      acknowledged (kept.map fun text => Op.write .drain (text ++ [newline])) = [] ∧
        sentTexts (kept.map fun text => Op.write .drain (text ++ [newline])) = [] := by
    simp [acknowledged, sentTexts, List.filterMap_map]
  refine ⟨?_, ?_, routine_log _ quiet⟩
  · rw [session, acknowledged_session _ _ (closing_silent _ _).1, acknowledged_append,
      acknowledged_deliveries, (written _).1, List.append_nil]
  · rw [session, sentTexts_session _ _ _ (closing_silent _ _).2, sentTexts_append,
      sentTexts_deliveries, (written _).2, List.append_nil]

theorem drainOfflineQueue_lines (texts : List Bytes) (world : World σ)
    (lines : ∀ text ∈ texts, Line text) (queue : world.disk.queue.getD [] = framed texts) :
    let acked := (deliver remote url world.remote texts).1
    let after := drainOfflineQueue remote url world
    after.disk.queue.getD [] = framed (texts.drop acked) ∧
      LogGrows world.log after.log (texts.take acked) [] [] ∧
      sentTexts after.log = sentTexts world.log ++ texts.take (acked + 1) := by
  cases file : world.disk.queue with
  | none =>
      rw [file] at queue
      have empty : texts = [] := by
        cases texts with
        | nil => rfl
        | cons text texts => simp [framed_cons] at queue
      subst empty
      simp [drainOfflineQueue, drainQueue, file, World.run, deliver, logGrows_refl]
  | some content =>
      rw [file, Option.getD_some] at queue
      subst queue
      obtain ⟨_, ops⟩ := drainQueue_lines remote url texts world.remote lines
      have left := drainQueue_file remote url world.remote world.disk (framed texts)
      rw [readChunks_framed texts lines, (drainLoop_lines remote url texts world.remote lines).2.2,
        bytesTo_lines] at left
      obtain ⟨acks, sends, evicted, dropped⟩ :=
        drainLines_log texts (deliver remote url world.remote texts).1
      have grows := logGrows_append world.log
        (drainLines texts (deliver remote url world.remote texts).1)
      rw [acks, evicted, dropped] at grows
      simp only [drainOfflineQueue, World.run, file]
      exact ⟨left, ops ▸ grows, by rw [ops, sentTexts_append, sends]⟩

end

/-! ## Trimming and storing such a file -/

theorem trimLoop_lines (toSkip : Nat) (texts : List Bytes) (lines : ∀ text ∈ texts, Line text) :
    trimLoop toSkip (texts.map fun text => text ++ [newline]) =
      ((texts.take toSkip).map fun text => .skip (text ++ [newline])) ++
        (texts.drop toSkip).map fun text => .write .trim (text ++ [newline]) := by
  induction texts generalizing toSkip with
  | nil => cases toSkip <;> rfl
  | cons text texts ih =>
      obtain ⟨⟨_, whole, _⟩, tail⟩ := List.forall_mem_cons.mp lines
      have noNul : nul ∉ text ++ [newline] := by
        intro member
        rcases List.mem_append.mp member with inText | isNewline
        · exact whole inText
        · exact absurd (List.mem_singleton.mp isNewline) (by decide)
      cases toSkip with
      | zero => simp [trimLoop, cstring_self _ noNul, ih 0 tail]
      | succ toSkip => simp [trimLoop, ih toSkip tail]

/-- The operations of a trim of payload lines. -/
def trimLines (skipped kept : List Bytes) : List Op :=
  .openTmp .trim :: ((skipped.map fun text => .skip (text ++ [newline])) ++
    (kept.map fun text => .write .trim (text ++ [newline])) ++
      [.closeTmp .trim, .rename .trim true])

theorem trimLines_log (skipped kept : List Bytes) :
    acknowledged (trimLines skipped kept) = [] ∧ sentTexts (trimLines skipped kept) = [] ∧
      evictedLines (trimLines skipped kept) = (skipped.map fun text => text ++ [newline]) ∧
      droppedTexts (trimLines skipped kept) = [] := by
  simp [trimLines, acknowledged, sentTexts, evictedLines, droppedTexts, List.filterMap_append,
    List.filterMap_map]

theorem trimOfflineQueue_lines (texts : List Bytes) (world : World σ)
    (lines : ∀ text ∈ texts, Line text) (queue : world.disk.queue.getD [] = framed texts) :
    let extra := texts.length - maxOfflineLines
    let after := trimOfflineQueue world
    after.disk.queue.getD [] = framed (texts.drop extra) ∧
      LogGrows world.log after.log [] ((texts.take extra).map fun text => text ++ [newline]) [] ∧
      sentTexts after.log = sentTexts world.log ∧ after.remote = world.remote := by
  have counted : countLines world.disk.queue = texts.length := by
    rw [countLines, queue, framed_count texts fun text member => (lines text member).1]
  by_cases few : texts.length ≤ maxOfflineLines
  · have ops : trimOps .good world.disk.queue = [] := by
      rw [trimOps, counted, if_pos few]
    simp [trimOfflineQueue, World.run, ops, Nat.sub_eq_zero_of_le few, queue, logGrows_refl]
  · have ops : trimOps .good world.disk.queue = .openTmp .trim ::
        (trimLoop (texts.length - maxOfflineLines) (readChunks (framed texts)) ++
          [.closeTmp .trim, .rename .trim true]) := by
      rw [trimOps, counted, if_neg few, queue]
      rfl
    have rewritten := perform_rewrite .good .trim _ world.disk
      (trimLoop_copies (texts.length - maxOfflineLines) (readChunks (framed texts)))
    rw [← ops, trimLoop_bytes, readChunks_framed texts lines, ← List.map_drop] at rewritten
    have kept : ∀ text ∈ texts.drop (texts.length - maxOfflineLines), Line text :=
      fun text member => lines text (List.mem_of_mem_drop member)
    -- No line holds a NUL, so each is copied whole.
    have copied : ((texts.drop (texts.length - maxOfflineLines)).map
        fun text => text ++ [newline]).flatMap cstring =
          framed (texts.drop (texts.length - maxOfflineLines)) := by
      rw [← readChunks_framed _ kept]
      exact flatMap_cstring lineRoom _ (framed_noNul _ kept)
    have shape : trimOps .good world.disk.queue =
        trimLines (texts.take (texts.length - maxOfflineLines))
          (texts.drop (texts.length - maxOfflineLines)) := by
      rw [ops, readChunks_framed texts lines, trimLoop_lines _ texts lines, trimLines]
    obtain ⟨acks, sends, evicted, dropped⟩ := trimLines_log
      (texts.take (texts.length - maxOfflineLines)) (texts.drop (texts.length - maxOfflineLines))
    have grows := logGrows_append world.log (trimOps .good world.disk.queue)
    rw [shape, acks, evicted, dropped] at grows
    rw [copied] at rewritten
    simp only [trimOfflineQueue, World.run]
    refine ⟨?_, shape ▸ grows, ?_, trivial⟩
    · rw [rewritten]
      exact landed_mark_all 0 _
    · rw [shape, sentTexts_append, sends, List.append_nil]

section
variable (world : World σ) (texts : List Bytes) (lines : ∀ text ∈ texts, Line text)
  (queue : world.disk.queue.getD [] = framed texts) (payload : Bytes)
include lines queue

theorem storeWithSpace_lines (before after : Bool) :
    let io := StoreIo.mk before after true true
    let extra := texts.length - maxOfflineLines
    (storeWithSpace io world payload).disk.queue.getD [] =
        framed (texts.drop extra ++ [payload]) ∧
      LogGrows world.log (storeWithSpace io world payload).log []
        ((texts.take extra).map fun text => text ++ [newline]) [] ∧
      sentTexts (storeWithSpace io world payload).log = sentTexts world.log ∧
      (storeWithSpace io world payload).remote = world.remote := by
  obtain ⟨file, grows, sends, remote⟩ := trimOfflineQueue_lines texts world lines queue
  have appended : LogGrows (trimOfflineQueue world).log
      ((trimOfflineQueue world).log ++ [.append payload]) [] [] [] := logGrows_append _ _
  simp only [storeWithSpace, ↓reduceIte, World.run]
  refine ⟨?_, by simpa using grows.trans appended, ?_, remote⟩
  · simp only [perform_cons, perform_nil, effect, file, Option.getD_some, framed_append]
    simp [framed]
  · rw [sentTexts_append, sends]
    exact List.append_nil _

end

/-! ## The round trip of stored payloads -/

/-- A server that takes every payload, with either success code. -/
def acceptingRemote (keyFile : σ → Option Bytes) (created : σ → Request → Bool)
    (next : σ → Request → σ) : Remote σ :=
  ⟨keyFile, fun state request => (.status (if created state request then 201 else 200),
    next state request)⟩

def StoreIo.good : StoreIo := ⟨true, true, true, true⟩

def storeAll (world : World σ) (texts : List Bytes) : World σ :=
  texts.foldl (storeLocally StoreIo.good) world

/-- Storing the texts in an empty queue and then draining sends just these texts
and leaves nothing. -/
def RoundTrips (remote : Remote σ) (url : Bytes) (state : σ) (texts : List Bytes) : Prop :=
  let stored := storeAll ⟨⟨none, none, none⟩, [], state⟩ texts
  let drained := drainOfflineQueue remote url stored
  sentTexts drained.log = texts ∧ drained.disk.queue.getD [] = []

theorem accepting_sends (keyFile : σ → Option Bytes) (created : σ → Request → Bool)
    (next : σ → Request → σ) (state : σ) (payload url : Bytes) :
    (sendToServer (acceptingRemote keyFile created next) state payload url).1 = true := by
  simp only [sendToServer, acceptingRemote, succeeded]
  split <;> rfl

theorem accepting_delivers (keyFile : σ → Option Bytes) (created : σ → Request → Bool)
    (next : σ → Request → σ) (url : Bytes) (texts : List Bytes) (state : σ) :
    (deliver (acceptingRemote keyFile created next) url state texts).1 = texts.length := by
  induction texts generalizing state with
  | nil => rfl
  | cons text texts ih =>
      have accepted := accepting_sends keyFile created next state text url
      rcases answer : sendToServer (acceptingRemote keyFile created next) state text url
        with ⟨acked, after⟩
      rw [answer] at accepted
      subst accepted
      simp [deliver, answer, ih]

theorem storeAll_lines (texts stored : List Bytes) (world : World σ)
    (lines : ∀ text ∈ stored ++ texts, Line text)
    (queue : world.disk.queue.getD [] = framed stored)
    (few : stored.length + texts.length ≤ maxOfflineLines) :
    (storeAll world texts).disk.queue.getD [] = framed (stored ++ texts) ∧
      sentTexts (storeAll world texts).log = sentTexts world.log := by
  induction texts generalizing stored world with
  | nil => exact ⟨by simpa [storeAll] using queue, rfl⟩
  | cons text texts ih =>
      simp only [List.length_cons] at few
      obtain ⟨file, _, sends, _⟩ := storeWithSpace_lines world stored
        (fun other member => lines other (List.mem_append_left _ member)) queue text true true
      rw [Nat.sub_eq_zero_of_le (by omega), List.drop_zero] at file
      have rest := ih (stored ++ [text]) (storeLocally StoreIo.good world text)
        (by simpa using lines) file
        (by simp only [List.length_append, List.length_singleton]; omega)
      rw [List.append_assoc, List.singleton_append] at rest
      exact ⟨rest.1, rest.2.trans sends⟩

theorem drainLoop_sends (remote : Remote σ) (url : Bytes) (state : σ) (chunks : List Bytes) :
    ∀ text ∈ sentTexts (drainLoop remote url state chunks).ops, newline ∉ text := by
  fun_induction drainLoop remote url state chunks with
  | case1 state => simp [sentTexts]
  | case2 state chunk rest line blank ih => exact ih
  | case3 state chunk rest line text next answer more ih =>
      exact List.forall_mem_cons.mpr ⟨(chomp_clean chunk).1, ih⟩
  | case4 state chunk rest line text next answer =>
      intro other member
      have same : other = line := by simpa [sentTexts, List.filterMap_map] using member
      exact same ▸ (chomp_clean chunk).1

theorem drainOfflineQueue_sends (remote : Remote σ) (url : Bytes) (world : World σ) :
    ∃ sends, sentTexts (drainOfflineQueue remote url world).log =
        sentTexts world.log ++ sends ∧ ∀ text ∈ sends, newline ∉ text := by
  refine ⟨_, sentTexts_append _ _, ?_⟩
  rcases drainQueue_shape remote url .good world.remote world.disk.queue with none | shape
  · rw [none]
    simp [sentTexts]
  · rw [shape, sentTexts_session _ _ _ (closing_silent _ _).2]
    exact drainLoop_sends remote url world.remote _

theorem trimLoop_sends (toSkip : Nat) (lines : List Bytes) :
    sentTexts (trimLoop toSkip lines) = [] := by
  fun_induction trimLoop toSkip lines with
  | case1 toSkip => rfl
  | case2 line rest ih => exact ih
  | case3 toSkip line rest ih => exact ih

theorem trimOps_sends (io : TmpIo) (file : Option Bytes) : sentTexts (trimOps io file) = [] := by
  rcases trimOps_shape io file with none | ⟨_, shape⟩
  · rw [none]
    rfl
  · rw [shape, sentTexts_session .trim _ [.rename .trim io.renames] rfl]
    exact trimLoop_sends _ _

theorem storeAll_sends (world : World σ) (texts : List Bytes) :
    sentTexts (storeAll world texts).log = sentTexts world.log := by
  induction texts generalizing world with
  | nil => rfl
  | cons text texts ih =>
      have stored : sentTexts (storeLocally StoreIo.good world text).log = sentTexts world.log := by
        simp only [storeLocally, storeWithSpace, StoreIo.good, ↓reduceIte, trimOfflineQueue,
          World.run, sentTexts_append, trimOps_sends]
        simp [sentTexts]
      exact (ih _).trans stored

theorem round_trip_plain (remote : Remote σ) (url : Bytes) (state : σ) (texts : List Bytes)
    (trips : RoundTrips remote url state texts) : ∀ text ∈ texts, newline ∉ text := by
  obtain ⟨sends, log, plain⟩ := drainOfflineQueue_sends remote url
    (storeAll ⟨⟨none, none, none⟩, [], state⟩ texts)
  rw [storeAll_sends] at log
  have whole : texts = sends := trips.1.symm.trans log
  exact whole ▸ plain

theorem round_trip_lines (keyFile : σ → Option Bytes) (created : σ → Request → Bool)
    (next : σ → Request → σ) (url : Bytes) (state : σ) (texts : List Bytes)
    (few : texts.length ≤ maxOfflineLines) (lines : ∀ text ∈ texts, Line text) :
    RoundTrips (acceptingRemote keyFile created next) url state texts := by
  obtain ⟨file, silent⟩ := storeAll_lines texts [] ⟨⟨none, none, none⟩, [], state⟩ lines rfl
    (by simpa using few)
  obtain ⟨left, _, sends⟩ := drainOfflineQueue_lines (acceptingRemote keyFile created next) url
    texts _ lines file
  rw [accepting_delivers, List.drop_length] at left
  rw [accepting_delivers, silent, List.take_of_length_le (Nat.le_succ _)] at sends
  exact ⟨sends, left⟩

theorem payloadText_line (store : DataStore) (now : Int64) (single : SingleLine store) :
    Line (payloadText store now) :=
  ⟨(payloadText_newline store now).mpr single, payloadText_noNul store now,
    payloadText_nonempty store now, (payloadText_length store now).trans (by decide)⟩

/-- Payloads of stores come back from the queue as they went in exactly when no
sensor name holds a newline. -/
theorem queue_round_trip_iff (keyFile : σ → Option Bytes) (created : σ → Request → Bool)
    (next : σ → Request → σ) (url : Bytes) (state : σ) (stores : List (DataStore × Int64))
    (few : stores.length ≤ maxOfflineLines) :
    RoundTrips (acceptingRemote keyFile created next) url state
        (stores.filterMap fun taken => createJsonPayload true taken.1 taken.2) ↔
      ∀ taken ∈ stores, SingleLine taken.1 := by
  have payloads : (stores.filterMap fun taken => createJsonPayload true taken.1 taken.2) =
      stores.map fun taken => payloadText taken.1 taken.2 := by
    simp [createJsonPayload_complete, List.filterMap_eq_map']
  rw [payloads]
  constructor
  · intro trips taken member
    have plain := round_trip_plain _ url state _ trips _ (List.mem_map_of_mem member)
    exact (payloadText_newline taken.1 taken.2).mp plain
  · intro single
    apply round_trip_lines keyFile created next url state _ (by simpa using few)
    intro text member
    obtain ⟨taken, inStores, same⟩ := List.mem_map.mp member
    exact same ▸ payloadText_line taken.1 taken.2 (single taken inStores)

theorem stored_reading_round_trips :
    RoundTrips (acceptingRemote (fun _ => none) (fun _ _ => false) fun state _ => state)
      (ascii "http://server/data") ()
      ([(collect .reset [(ascii "temp:21.5", 7)], 9)].filterMap fun taken =>
        createJsonPayload true taken.1 taken.2) :=
  (queue_round_trip_iff _ _ _ _ () _ (by decide +kernel)).mpr (by decide +kernel)

/-- A datagram with a newline in its name is accepted, and its stored payload
comes back in pieces. -/
theorem newline_name_breaks_round_trip :
    ¬ RoundTrips (acceptingRemote (fun _ => none) (fun _ _ => false) fun state _ => state)
      (ascii "http://server/data") ()
      ([(collect .reset [(ascii "a\nb:1", 0)], 0)].filterMap fun taken =>
        createJsonPayload true taken.1 taken.2) := by
  intro trips
  have plain := round_trip_plain _ _ _ _ trips
    (payloadText (collect .reset [(ascii "a\nb:1", 0)]) 0)
    (by simp [createJsonPayload_complete])
  rw [payloadText_newline] at plain
  exact absurd plain (by decide +kernel)

/-! ## A refused payload -/

/-- A server that is always reachable and judges each payload by its text. -/
def meritRemote (keyFile : Option Bytes) (verdict : Bytes → Int) : Remote Unit :=
  ⟨fun _ => keyFile, fun _ request => (.status (verdict request.body), ())⟩

def accepts (verdict : Bytes → Int) (text : Bytes) : Bool := succeeded (.status (verdict text))

/-- What the inner loop copies behind the first line the server refuses. -/
def behindRefused (verdict : Bytes → Int) : List Bytes → Bytes
  | [] => []
  | chunk :: rest =>
      if chomp chunk = [] ∨ accepts verdict (chomp chunk) = true then behindRefused verdict rest
      else rest.flatMap cstring

/-- No text of the file would be accepted. -/
def Exhausted (verdict : Bytes → Int) (file : Bytes) : Prop :=
  ∀ text ∈ textsOf file, accepts verdict text = false

theorem drainLoop_exhausts (keyFile : Option Bytes) (verdict : Bytes → Int) (url : Bytes)
    (state : Unit) (chunks : List Bytes) :
    Exhausted verdict (bytesTo .drain
        (drainLoop (meritRemote keyFile verdict) url state chunks).ops) ↔
      Exhausted verdict (behindRefused verdict chunks) := by
  fun_induction drainLoop (meritRemote keyFile verdict) url state chunks with
  | case1 state => exact Iff.rfl
  | case2 state chunk rest line blank ih =>
      rw [ih, behindRefused, if_pos (.inl blank)]
  | case3 state chunk rest line text next answer more ih =>
      have accepted : accepts verdict line = true := congrArg Prod.fst answer
      rw [behindRefused, if_pos (.inr accepted), ← ih]
      rfl
  | case4 state chunk rest line text next answer =>
      have refused : accepts verdict line = false := congrArg Prod.fst answer
      have clean := chomp_clean chunk
      rw [refused_bytes, behindRefused,
        if_neg (by simp [line] at text refused; simp [text, refused]),
        Exhausted, textsOf_line _ _ clean.1, emit_present _ text, List.singleton_append,
        List.forall_mem_cons]
      simp [refused, Exhausted]

/-- Draining leaves no acceptable payload exactly when there is none behind the
first one refused. -/
theorem drain_exhausts_iff (keyFile : Option Bytes) (verdict : Bytes → Int) (url : Bytes)
    (world : World Unit) :
    Exhausted verdict ((drainOfflineQueue (meritRemote keyFile verdict) url world).disk.queue.getD
        []) ↔
      Exhausted verdict (behindRefused verdict (readChunks (world.disk.queue.getD []))) := by
  cases file : world.disk.queue with
  | none => simp [drainOfflineQueue, drainQueue, World.run, file, readChunks, behindRefused]
  | some content =>
      have left := drainQueue_file (meritRemote keyFile verdict) url world.remote world.disk content
      simp only [drainOfflineQueue, World.run, file]
      rw [left, drainLoop_exhausts]
      rfl

/-- One refused payload keeps an acceptable one behind it in the queue. -/
theorem refused_payload_blocks_queue :
    ¬ Exhausted (fun text => if text = ascii "good" then 200 else 400)
      ((drainOfflineQueue (meritRemote none fun text => if text = ascii "good" then 200 else 400)
        (ascii "http://server/data")
        ⟨⟨some (ascii "bad\ngood\n"), none, none⟩, [], ()⟩).disk.queue.getD []) := by
  unfold Exhausted
  decide +kernel

end SensorNode.QueueDelivery
