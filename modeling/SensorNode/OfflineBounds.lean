import SensorNode.QueueDelivery
import SensorNode.FrameStore
import SensorNode.StepSystem

/-!
How much the two offline stores hold over whole runs: the lines of the queue file of
data-collector, each the end of a payload, and the files of camera-stream. Both trim
to the limit before they append, so a run stays within it when every append finds room.
-/

namespace SensorNode.OfflineBounds

open StepSystem LineStream LineLoss OfflineQueue TrimRewrite DrainRewrite QueueDelivery FrameStore

universe u
variable {σ : Type u}

/-! ## The queue file -/

/-- A payload is a C string that `fgets` can read back whole. -/
structure Payload where
  bytes : Bytes
  noNul : nul ∉ bytes
  short : bytes.length ≤ lineRoom

/-- `before` and `after` are the outcomes of `disk_space_ok`. -/
inductive QueueOp where
  | store (before after : Bool) (payload : Payload)
  | trim
  | drain (url : Bytes)

section
variable (remote : Remote σ)

def queueStep (world : World σ) : QueueOp → Option (World σ)
  | .store before after payload =>
      some (storeLocally ⟨before, after, true, true⟩ world payload.bytes)
  | .trim => some (trimOfflineQueue world)
  | .drain url => some (drainOfflineQueue remote url world)

def QueueStarts (world : World σ) : Prop := world.disk.queue.getD [] = []

/-- A payload that is appended finds room for its lines. -/
def QueueRoom (world : World σ) : QueueOp → Prop
  | .store before after payload => before || after →
      countLines world.disk.queue + (payload.bytes.count newline + 1) ≤ maxOfflineLines
  | .trim | .drain _ => True

instance (world : World σ) (op : QueueOp) : Decidable (QueueRoom world op) := by
  cases op <;> unfold QueueRoom <;> infer_instance

/-- A line of the queue file; unlike a payload it may be blank. -/
def Carried (text : Bytes) : Prop := newline ∉ text ∧ nul ∉ text ∧ text.length ≤ lineRoom

/-- The file is made of whole lines, and of no more than the limit. -/
def Bounded (limit : Nat) (world : World σ) : Prop :=
  ∃ texts, world.disk.queue.getD [] = framed texts ∧ (∀ text ∈ texts, Carried text) ∧
    texts.length ≤ limit

theorem payload_lines (bytes : Bytes) (whole : nul ∉ bytes) :
    ∃ texts, bytes ++ [newline] = framed texts ∧ texts.length = bytes.count newline + 1 ∧
      ∀ text ∈ texts, newline ∉ text ∧ nul ∉ text ∧ text.length ≤ bytes.length := by
  induction bytes with
  | nil => exact ⟨[[]], rfl, rfl, by simp⟩
  | cons byte rest ih =>
      obtain ⟨first, others⟩ := List.forall_mem_cons.mp (List.forall_mem_ne.mpr whole)
      obtain ⟨texts, joined, length, carried⟩ := ih fun member => whole (.tail byte member)
      by_cases last : byte = newline
      · subst last
        refine ⟨[] :: texts, by simp [framed_cons, ← joined], by simp [length], ?_⟩
        refine List.forall_mem_cons.mpr ⟨by simp, fun text member => ?_⟩
        obtain ⟨plain, clean, short⟩ := carried text member
        exact ⟨plain, clean, short.trans (Nat.le_succ _)⟩
      · cases texts with
        | nil => cases length
        | cons text texts =>
            obtain ⟨⟨plain, clean, short⟩, tail⟩ := List.forall_mem_cons.mp carried
            refine ⟨(byte :: text) :: texts, ?_, ?_, ?_⟩
            · rw [framed_cons] at joined
              simp [framed_cons, joined]
            · rw [List.count_cons_of_ne (last)]
              simpa using length
            · refine List.forall_mem_cons.mpr ⟨⟨?_, ?_, ?_⟩, fun other member => ?_⟩
              · simpa [Ne.symm last] using plain
              · simpa [first] using clean
              · simpa using short
              · obtain ⟨plain, clean, short⟩ := tail other member
                exact ⟨plain, clean, short.trans (Nat.le_succ _)⟩

theorem carried_chunks (texts : List Bytes) (carried : ∀ text ∈ texts, Carried text) :
    readChunks (framed texts) = texts.map fun text => text ++ [newline] := by
  have lines := linesOf_framed lineRoom texts [] fun text member =>
    ⟨(carried text member).1, (carried text member).2.2⟩
  simpa [readChunks] using lines

/-- The `%s` of a copy ends at a zero byte, and there is none. -/
theorem carried_copied (texts : List Bytes) (carried : ∀ text ∈ texts, Carried text) :
    (texts.map fun text => text ++ [newline]).flatMap cstring = framed texts := by
  rw [← carried_chunks texts carried]
  refine flatMap_cstring lineRoom _ fun member => ?_
  obtain ⟨text, own, inside⟩ := List.mem_flatMap.mp member
  rcases List.mem_append.mp inside with inText | isNewline
  · exact (carried text own).2.1 inText
  · exact absurd (List.mem_singleton.mp isNewline) (by decide)

theorem drainLoop_kept_lines (url : Bytes) (state : σ) (texts : List Bytes)
    (carried : ∀ text ∈ texts, Carried text) :
    ∃ kept, kept <:+ texts ∧ bytesTo .drain (drainLoop remote url state
      (texts.map fun text => text ++ [newline])).ops = framed kept := by
  induction texts generalizing state with
  | nil => exact ⟨[], List.suffix_refl [], rfl⟩
  | cons text texts ih =>
      obtain ⟨⟨plain, clean, _⟩, tail⟩ := List.forall_mem_cons.mp carried
      have line : chomp (text ++ [newline]) = text := chomp_line text plain clean
      have later (next : σ) : ∃ kept, kept <:+ text :: texts ∧ bytesTo .drain (drainLoop remote url
          next (texts.map fun text => text ++ [newline])).ops = framed kept := by
        obtain ⟨kept, behind, written⟩ := ih next tail
        exact ⟨kept, behind.trans (List.suffix_cons text texts), written⟩
      rw [List.map_cons]
      by_cases blank : text = []
      · rw [drainLoop, line, if_pos blank]
        exact later state
      · rcases answer : sendToServer remote state text url with ⟨acked, next⟩
        cases acked with
        | true =>
            simp only [drainLoop, line, blank, if_false, answer]
            exact later next
        | false =>
            refine ⟨text :: texts, List.suffix_refl _, ?_⟩
            simp only [drainLoop, line, blank, if_false, answer]
            rw [refused_bytes, carried_copied texts tail, framed_cons]

theorem bounded_drain (limit : Nat) (url : Bytes) (world : World σ)
    (bounded : Bounded limit world) : Bounded limit (drainOfflineQueue remote url world) := by
  obtain ⟨texts, file, carried, few⟩ := bounded
  cases queue : world.disk.queue with
  | none =>
      have same : drainOfflineQueue remote url world = world.run [] := by
        simp [drainOfflineQueue, drainQueue, queue, World.run]
      rw [same]
      exact ⟨texts, file, carried, few⟩
  | some content =>
      rw [queue, Option.getD_some] at file
      subst file
      have left := drainQueue_file remote url world.remote world.disk (framed texts)
      obtain ⟨kept, behind, written⟩ :=
        drainLoop_kept_lines remote url world.remote texts carried
      rw [carried_chunks texts carried, written] at left
      refine ⟨kept, ?_, fun text member => carried text (behind.subset member),
        behind.length_le.trans few⟩
      simpa only [drainOfflineQueue, World.run, queue] using left

omit remote

theorem bounded_count (world : World σ) (texts : List Bytes)
    (file : world.disk.queue.getD [] = framed texts) (carried : ∀ text ∈ texts, Carried text) :
    countLines world.disk.queue = texts.length := by
  rw [countLines, file, framed_count texts fun text member => (carried text member).1]

theorem trim_idle (world : World σ) (few : countLines world.disk.queue ≤ maxOfflineLines) :
    (trimOfflineQueue world).disk = world.disk := by
  simp [trimOfflineQueue, World.run, trimOps, few]

theorem bounded_same (limit : Nat) (world after : World σ) (bounded : Bounded limit world)
    (same : after.disk.queue = world.disk.queue) : Bounded limit after := by
  unfold Bounded
  rw [same]
  exact bounded

theorem bounded_mono (limit most : Nat) (world : World σ) (bounded : Bounded limit world)
    (less : limit ≤ most) : Bounded most world := by
  obtain ⟨texts, file, carried, few⟩ := bounded
  exact ⟨texts, file, carried, few.trans less⟩

theorem bounded_append (limit : Nat) (world : World σ) (payload : Payload)
    (bounded : Bounded limit world) :
    Bounded (limit + (payload.bytes.count newline + 1)) (world.run [.append payload.bytes]) := by
  obtain ⟨texts, file, carried, few⟩ := bounded
  obtain ⟨lines, joined, length, pieces⟩ := payload_lines payload.bytes payload.noNul
  refine ⟨texts ++ lines, ?_, ?_, ?_⟩
  · simp [World.run, effect, file, framed_append, joined]
  · intro text member
    rcases List.mem_append.mp member with older | newer
    · exact carried text older
    · obtain ⟨plain, clean, short⟩ := pieces text newer
      exact ⟨plain, clean, short.trans payload.short⟩
  · rw [List.length_append]
    omega

theorem store_appends (before after : Bool) (world : World σ) (payload : Bytes)
    (few : countLines world.disk.queue ≤ maxOfflineLines) :
    (storeLocally ⟨before, after, true, true⟩ world payload).disk.queue =
      if before || after then some (world.disk.queue.getD [] ++ (payload ++ [newline]))
      else world.disk.queue := by
  have once (start : World σ) (same : start.disk = world.disk) :
      (storeWithSpace ⟨before, after, true, true⟩ start payload).disk.queue =
        some (world.disk.queue.getD [] ++ (payload ++ [newline])) := by
    have idle := trim_idle start (same ▸ few)
    simp [storeWithSpace, World.run, effect, idle, same]
  cases before with
  | true => exact once world rfl
  | false =>
      cases after with
      | true => exact once (trimOfflineQueue world) (trim_idle world few)
      | false =>
          simp [storeLocally, World.run, effect, trim_idle world few]

theorem bounded_store (before after : Bool) (payload : Payload) (world : World σ)
    (bounded : Bounded maxOfflineLines world)
    (room : QueueRoom world (.store before after payload)) :
    Bounded maxOfflineLines (storeLocally ⟨before, after, true, true⟩ world payload.bytes) := by
  obtain ⟨texts, file, carried, few⟩ := id bounded
  have counted := bounded_count world texts file carried
  have stored := store_appends before after world payload.bytes (counted ▸ few)
  cases space : before || after with
  | false =>
      rw [space, if_neg Bool.false_ne_true] at stored
      exact bounded_same _ world _ bounded stored
  | true =>
      have fits := room space
      have appended := bounded_append _ world payload ⟨texts, file, carried, le_rfl⟩
      rw [space, if_pos rfl] at stored
      have within := bounded_mono _ maxOfflineLines _ appended (counted ▸ fits)
      exact bounded_same _ (world.run [.append payload.bytes]) _ within stored

theorem bounded_trim (limit : Nat) (world : World σ) (bounded : Bounded limit world) :
    Bounded (min limit maxOfflineLines) (trimOfflineQueue world) := by
  obtain ⟨texts, file, carried, few⟩ := bounded
  have counted := bounded_count world texts file carried
  by_cases within : texts.length ≤ maxOfflineLines
  · have same : (trimOfflineQueue world).disk = world.disk := trim_idle world (counted ▸ within)
    exact ⟨texts, same ▸ file, carried, le_min few within⟩
  -- More lines than the limit: the oldest are left out of the copy.
  · have kept : ∀ text ∈ texts.drop (texts.length - maxOfflineLines), Carried text :=
      fun text member => carried text (List.mem_of_mem_drop member)
    refine ⟨texts.drop (texts.length - maxOfflineLines), ?_, kept, ?_⟩
    · have rewritten := perform_rewrite .good .trim _ world.disk
        (trimLoop_copies (texts.length - maxOfflineLines) (readChunks (framed texts)))
      have ops : trimOps .good world.disk.queue = .openTmp .trim ::
          (trimLoop (texts.length - maxOfflineLines) (readChunks (framed texts)) ++
            [.closeTmp .trim, .rename .trim true]) := by
        rw [trimOps, counted, if_neg within, file]
        rfl
      rw [← ops, trimLoop_bytes, carried_chunks texts carried, ← List.map_drop] at rewritten
      rw [trimOfflineQueue, World.run, rewritten]
      exact (landed_mark_all 0 _).trans (carried_copied _ kept)
    · rw [List.length_drop]
      omega

/-- Trims and drains add nothing, so the bound is one on what is stored. -/
theorem bounded_step (limit : Nat) (remote : Remote σ) (world : World σ) (op : QueueOp)
    (next : World σ) (bounded : Bounded limit world)
    (stored : ∀ before after payload, op = .store before after payload →
      Bounded limit (storeLocally ⟨before, after, true, true⟩ world payload.bytes))
    (moved : queueStep remote world op = some next) : Bounded limit next := by
  cases op with
  | store before after payload =>
      cases moved
      exact stored before after payload rfl
  | trim =>
      cases moved
      exact bounded_mono _ _ _ (bounded_trim _ world bounded) (Nat.min_le_left _ _)
  | drain url =>
      cases moved
      exact bounded_drain remote limit url world bounded

theorem queue_within (limit : Nat) (remote : Remote σ) (allowed : World σ → QueueOp → Prop)
    (stored : ∀ world before after payload, Bounded limit world →
      allowed world (.store before after payload) →
        Bounded limit (storeLocally ⟨before, after, true, true⟩ world payload.bytes))
    (world : World σ) (reached : ReachableWithin (queueStep remote) QueueStarts allowed world) :
    countLines world.disk.queue ≤ limit := by
  have bounded : Bounded limit world := by
    apply reachable_within_invariant (queueStep remote) QueueStarts (Bounded limit) allowed _ _
      world reached
    · exact fun start empty => ⟨[], empty, nofun, Nat.zero_le _⟩
    · intro start op next bounded permitted moved
      refine bounded_step limit remote start op next bounded ?_ moved
      rintro before after payload rfl
      exact stored start before after payload bounded permitted
  obtain ⟨texts, file, carried, few⟩ := bounded
  exact bounded_count world texts file carried ▸ few

theorem queue_bounded (remote : Remote σ) (world : World σ)
    (reached : ReachableWithin (queueStep remote) QueueStarts QueueRoom world) :
    countLines world.disk.queue ≤ maxOfflineLines :=
  queue_within maxOfflineLines remote QueueRoom
    (fun start before after payload => bounded_store before after payload start) world reached

theorem bounded_store_extra (extra : Nat) (before after : Bool) (payload : Payload)
    (world : World σ) (bounded : Bounded (maxOfflineLines + extra) world)
    (short : payload.bytes.count newline + 1 ≤ extra) :
    Bounded (maxOfflineLines + extra)
      (storeLocally ⟨before, after, true, true⟩ world payload.bytes) := by
  -- The second trim of a store is one of a queue that the first has cut already.
  have trimmed (start : World σ) (some : Bounded (maxOfflineLines + extra) start) :
      Bounded maxOfflineLines (trimOfflineQueue start) :=
    bounded_mono _ _ _ (bounded_trim _ start some) (Nat.min_le_right _ _)
  have once (start : World σ) (some : Bounded (maxOfflineLines + extra) start) :
      Bounded (maxOfflineLines + extra)
        (storeWithSpace ⟨before, after, true, true⟩ start payload.bytes) :=
    bounded_mono _ _ _ (bounded_append _ _ payload (trimmed start some)) (by omega)
  have room := bounded_mono _ (maxOfflineLines + extra) _ (trimmed world bounded) (by omega)
  cases before with
  | true => exact once world bounded
  | false =>
      cases after with
      | true => exact once _ room
      | false => exact bounded_same _ _ _ room rfl

def LinesAtMost (extra : Nat) (_world : World σ) : QueueOp → Prop
  | .store _ _ payload => payload.bytes.count newline + 1 ≤ extra
  | .trim | .drain _ => True

/-- Without room the queue holds the limit, and one payload. -/
theorem queue_bounded_extra (remote : Remote σ) (extra : Nat) (world : World σ)
    (reached : ReachableWithin (queueStep remote) QueueStarts (LinesAtMost extra) world) :
    countLines world.disk.queue ≤ maxOfflineLines + extra :=
  queue_within (maxOfflineLines + extra) remote (LinesAtMost extra)
    (fun start before after payload => bounded_store_extra extra before after payload start)
    world reached

end

/-! ## The frames directory -/

def frameCount (dir : Directory) : Nat := dir.countP fun file => isJpg file.name

/-- A store is preceded by its trim, as in `push_thread`. -/
inductive FrameOp where
  | store (diskOk : Bool) (scan : Scan) (reading : Timespec) (frame : Nat)
  | trim (scan : Scan)
  | drain (io : DrainIo)

def frameStep (dir : Directory) : FrameOp → Option Directory
  | .store diskOk scan reading frame =>
      if scan.Of dir then
        some (if diskOk then offlineFramesStore reading frame (offlineFramesTrim scan dir) else dir)
      else none
  | .trim scan => if scan.Of dir then some (offlineFramesTrim scan dir) else none
  | .drain io => if io.scan.Of dir then some (offlineFramesDrainBatch io 5 dir) else none

def FrameStarts (dir : Directory) : Prop := dir = []

/-- A frame that is stored finds room, or a file of its name to overwrite. -/
def FrameRoom (dir : Directory) : FrameOp → Prop
  | .store diskOk _ reading _ => diskOk →
      frameCount dir < maxOfflineFrames ∨ frameName reading ∈ names dir
  | .trim _ | .drain _ => True

instance (dir : Directory) (op : FrameOp) : Decidable (FrameRoom dir op) := by
  cases op <;> unfold FrameRoom <;> infer_instance

theorem unlinkAll_count (gone : List Bytes) (dir : Directory) :
    frameCount (unlinkAll gone dir) ≤ frameCount dir :=
  (unlinkAll_sublist gone dir).countP_le

theorem trim_count (scan : Scan) (dir : Directory) :
    frameCount (offlineFramesTrim scan dir) ≤ frameCount dir :=
  (offlineFramesTrim_sublist scan dir).countP_le

theorem trim_frames_idle (scan : Scan) (dir : Directory) (of : scan.Of dir)
    (few : frameCount dir ≤ maxOfflineFrames) : offlineFramesTrim scan dir = dir := by
  have listed := listed_length scan (maxOfflineFrames + 64) dir of
  have counted : ((names dir).filter isJpg).length = frameCount dir := by
    rw [← List.countP_eq_length_filter, names, List.countP_map]
    rfl
  rw [offlineFramesTrim, if_pos (by omega)]

theorem removal_count (gone : List Bytes) (name : Bytes) (dir : Directory) (removed : name ∈ gone)
    (jpg : isJpg name = true) (present : name ∈ names dir) :
    frameCount (unlinkAll gone dir) < frameCount dir := by
  obtain ⟨file, member, same⟩ := List.mem_map.mp present
  have parts := List.countP_eq_countP_filter_add dir (fun file => isJpg file.name)
    (fun file => file.name ∉ gone)
  have lost : 0 < (dir.filter fun file => !decide (file.name ∉ gone)).countP
      fun file => isJpg file.name := by
    apply List.countP_pos_iff.mpr
    exact ⟨file, List.mem_filter.mpr ⟨member, by simpa [same] using removed⟩, by rw [same, jpg]⟩
  simp only [frameCount, unlinkAll]
  omega

theorem store_count (reading : Timespec) (frame : Nat) (dir : Directory) :
    frameCount (offlineFramesStore reading frame dir) =
      frameCount (unlinkAll [frameName reading] dir) + 1 := by
  have newest : frameCount [⟨frameName reading, frame⟩] = 1 := by
    simp [frameCount, frameName_isJpg]
  rw [offlineFramesStore, frameCount, List.countP_append]
  exact congrArg _ newest

theorem frames_step (limit : Nat) (dir : Directory) (op : FrameOp) (next : Directory)
    (few : frameCount dir ≤ limit)
    (stored : ∀ scan reading frame, op = .store true scan reading frame → scan.Of dir →
      frameCount (offlineFramesStore reading frame (offlineFramesTrim scan dir)) ≤ limit)
    (moved : frameStep dir op = some next) : frameCount next ≤ limit := by
  cases op with
  | store diskOk scan reading frame =>
      simp only [frameStep] at moved
      split at moved
      · next of =>
        cases moved
        cases diskOk with
        | false => exact few
        | true => exact stored scan reading frame rfl of
      · cases moved
  | trim scan =>
      simp only [frameStep] at moved
      split at moved <;> cases moved
      exact (trim_count scan dir).trans few
  | drain io =>
      simp only [frameStep] at moved
      split at moved <;> cases moved
      exact (unlinkAll_count _ dir).trans few

theorem frames_within (limit : Nat) (allowed : Directory → FrameOp → Prop)
    (stored : ∀ dir scan reading frame, frameCount dir ≤ limit →
      allowed dir (.store true scan reading frame) → scan.Of dir →
        frameCount (offlineFramesStore reading frame (offlineFramesTrim scan dir)) ≤ limit)
    (dir : Directory) (reached : ReachableWithin frameStep FrameStarts allowed dir) :
    frameCount dir ≤ limit := by
  apply reachable_within_invariant frameStep FrameStarts (frameCount · ≤ limit) allowed _ _ dir
    reached
  · rintro _ rfl
    exact Nat.zero_le _
  · intro start op next few permitted moved
    refine frames_step limit start op next few ?_ moved
    rintro scan reading frame rfl
    exact stored start scan reading frame few permitted

theorem frames_bounded (dir : Directory)
    (reached : ReachableWithin frameStep FrameStarts FrameRoom dir) :
    frameCount dir ≤ maxOfflineFrames := by
  refine frames_within maxOfflineFrames FrameRoom ?_ dir reached
  intro start scan reading frame few room of
  rw [trim_frames_idle scan start of few, store_count]
  rcases room rfl with fewer | present
  · have rest := unlinkAll_count [frameName reading] start
    omega
  · have named := frameName_isJpg reading
    have rest := removal_count [frameName reading] _ start List.mem_cons_self named present
    omega

theorem listed_all (scan : Scan) (max : Nat) (dir : Directory) (of : scan.Of dir)
    (copied : ∀ name ∈ names dir, scan.copies name) :
    (listOfflineFrames scan max).length = min max (frameCount dir) := by
  have every : (scan.order.filter isJpg).filter scan.copies = scan.order.filter isJpg := by
    apply List.filter_eq_self.mpr
    exact fun name member => copied name (of.subset (List.mem_of_mem_filter member))
  rw [(listOfflineFrames_perm scan max).length_eq, every, List.length_take,
    (of.filter isJpg).length_eq, ← List.countP_eq_length_filter, names, List.countP_map]
  rfl

/-- A frame beyond the limit is removed by the next trim that can list it. -/
theorem trim_makes_room (scan : Scan) (dir : Directory) (of : scan.Of dir)
    (copied : ∀ name ∈ names dir, scan.copies name) (few : frameCount dir ≤ maxOfflineFrames + 1) :
    frameCount (offlineFramesTrim scan dir) ≤ maxOfflineFrames := by
  by_cases within : frameCount dir ≤ maxOfflineFrames
  · rwa [trim_frames_idle scan dir of within]
  · have length := listed_all scan (maxOfflineFrames + 64) dir of copied
    cases listed : listOfflineFrames scan (maxOfflineFrames + 64) with
    | nil =>
        rw [listed, List.length_nil] at length
        omega
    | cons oldest rest =>
        obtain ⟨present, jpg⟩ := listed_mem scan (maxOfflineFrames + 64) dir of oldest
          (listed ▸ List.mem_cons_self)
        -- There is one frame too many, and the trim removes the first of the listing.
        have chosen : oldest ∈ doomed scan := by
          have excess : (oldest :: rest).length - maxOfflineFrames = 1 := by
            rw [← listed, length]
            omega
          rw [doomed, listed, excess]
          exact List.mem_cons_self
        have fewer := removal_count (doomed scan) oldest dir chosen jpg present
        rw [offlineFramesTrim_eq]
        omega

/-- The trim before a store can list the directory. -/
def StoresList (dir : Directory) : FrameOp → Prop
  | .store _ scan _ _ => ∀ name ∈ names dir, scan.copies name
  | .trim _ | .drain _ => True

/-- Without room the directory holds the limit, and one frame. -/
theorem frames_bounded_extra (dir : Directory)
    (reached : ReachableWithin frameStep FrameStarts StoresList dir) :
    frameCount dir ≤ maxOfflineFrames + 1 := by
  refine frames_within (maxOfflineFrames + 1) StoresList ?_ dir reached
  intro start scan reading frame few listed of
  have room := trim_makes_room scan start of listed few
  have rest := unlinkAll_count [frameName reading] (offlineFramesTrim scan start)
  rw [store_count]
  omega

/-! ## Both stores -/

/-- In runs whose appends find room both stores keep to their limits. -/
theorem offline_stores_bounded (remote : Remote σ) (world : World σ) (dir : Directory)
    (queued : ReachableWithin (queueStep remote) QueueStarts QueueRoom world)
    (framesKept : ReachableWithin frameStep FrameStarts FrameRoom dir) :
    countLines world.disk.queue ≤ maxOfflineLines ∧ frameCount dir ≤ maxOfflineFrames :=
  ⟨queue_bounded remote world queued, frames_bounded dir framesKept⟩

def offline : Remote Unit := ⟨fun _ => none, fun _ _ => (.failed, ())⟩

def emptyQueue : World Unit := ⟨⟨none, none, none⟩, [], ()⟩

def reading : Payload := ⟨ascii "\x7b\"sensors\":[]\x7d", by decide, by decide⟩

def tick (nsec : Nat) (small : nsec < 10 ^ 9) : Timespec := ⟨1700000000, nsec, small⟩

def outageQueue : List QueueOp :=
  [.store true true reading, .trim, .drain (ascii "http://server/data")]

theorem outage_nsec : 5 < 10 ^ 9 := by norm_num

def outageFrames : List FrameOp := [.store true ⟨[], fun _ => true⟩ (tick 5 outage_nsec) 0]

theorem offline_stores_bounded_outage :
    ∃ world dir, exec (queueStep offline) emptyQueue outageQueue = some world ∧
      exec frameStep [] outageFrames = some dir ∧
      countLines world.disk.queue ≤ maxOfflineLines ∧ frameCount dir ≤ maxOfflineFrames :=
  ⟨_, _, rfl, rfl, offline_stores_bounded offline _ _
    ⟨emptyQueue, outageQueue, rfl, by decide +kernel, rfl⟩
    ⟨[], outageFrames, rfl, by decide +kernel, rfl⟩⟩

/-! ## One more than the limit -/

/-- In every run the queue keeps to its limit and the lines of a payload, and the frames,
where each trim can list them, to theirs and one. -/
theorem offline_stores_bounded_extra (remote : Remote σ) (extra : Nat) (world : World σ)
    (dir : Directory)
    (queued : ReachableWithin (queueStep remote) QueueStarts (LinesAtMost extra) world)
    (framesKept : ReachableWithin frameStep FrameStarts StoresList dir) :
    countLines world.disk.queue ≤ maxOfflineLines + extra ∧
      frameCount dir ≤ maxOfflineFrames + 1 :=
  ⟨queue_bounded_extra remote extra world queued, frames_bounded_extra dir framesKept⟩

theorem exec_stores (remote : Remote σ) (payloads : List Payload) (world : World σ) :
    exec (queueStep remote) world (payloads.map (QueueOp.store true true)) =
      some (storeAll world (payloads.map Payload.bytes)) := by
  induction payloads generalizing world with
  | nil => rfl
  | cons payload rest ih => exact ih _

theorem store_exceeds (world : World σ) (payload : Bytes) (plain : newline ∉ payload)
    (full : countLines world.disk.queue = maxOfflineLines) :
    countLines (storeLocally StoreIo.good world payload).disk.queue = maxOfflineLines + 1 := by
  have appended := store_appends true true world payload full.le
  rw [StoreIo.good, appended, ← full]
  simp [countLines, List.count_eq_zero_of_not_mem plain]

theorem queue_overflows (remote : Remote σ) (state : σ) :
    ∃ world, Reachable (queueStep remote) QueueStarts world ∧
      countLines world.disk.queue = maxOfflineLines + 1 := by
  have lines : ∀ text ∈ List.replicate maxOfflineLines reading.bytes, Line text := by
    intro text member
    rw [List.eq_of_mem_replicate member]
    exact ⟨by decide, by decide, by decide, by decide⟩
  have stored := (storeAll_lines (List.replicate maxOfflineLines reading.bytes) []
    ⟨⟨none, none, none⟩, [], state⟩ lines rfl (by simp)).1
  have full : countLines (storeAll ⟨⟨none, none, none⟩, [], state⟩
      (List.replicate maxOfflineLines reading.bytes)).disk.queue = maxOfflineLines := by
    rw [countLines, stored, List.nil_append,
      framed_count _ fun text member => (lines text member).1, List.length_replicate]
  have ran := exec_stores remote (List.replicate maxOfflineLines reading ++ [reading])
    ⟨⟨none, none, none⟩, [], state⟩
  rw [List.map_append, List.map_append, List.map_replicate (f := Payload.bytes), storeAll,
    List.foldl_append] at ran
  exact ⟨_, ⟨⟨⟨none, none, none⟩, [], state⟩, _, rfl, ran⟩,
    store_exceeds _ reading.bytes (by decide) full⟩

theorem store_frame_count (reading : Timespec) (frame : Nat) (dir : Directory)
    (fresh : frameName reading ∉ names dir) :
    offlineFramesStore reading frame dir = dir ++ [⟨frameName reading, frame⟩] ∧
      frameCount (offlineFramesStore reading frame dir) = frameCount dir + 1 := by
  rw [offlineFramesStore, unlinkAll_fresh _ _ fresh]
  exact ⟨rfl, by simp [frameCount, frameName_isJpg]⟩

theorem frames_fill (count : Nat) (few : count ≤ maxOfflineFrames + 1) :
    ∃ labels dir, exec frameStep [] labels = some dir ∧ frameCount dir = count ∧
      ∀ file ∈ dir, ∃ number small, number < count ∧ file.name = frameName (tick number small) := by
  -- By induction on the count: a store at each tick, up to one beyond the limit.
  induction count with
  | zero => exact ⟨[], [], rfl, rfl, nofun⟩
  | succ count ih =>
      obtain ⟨labels, dir, ran, counted, named⟩ := ih (by omega)
      have limit : maxOfflineFrames = 100 := by
        unfold maxOfflineFrames
        rfl
      have small : count < 10 ^ 9 := by omega
      have fresh : frameName (tick count small) ∉ names dir := by
        intro present
        obtain ⟨file, member, same⟩ := List.mem_map.mp present
        obtain ⟨number, _, earlier, name⟩ := named file member
        have equal := congrArg Timespec.nsec (frameName_injective (name.symm.trans same))
        exact absurd equal (Nat.ne_of_lt earlier)
      have scan : Scan.Of ⟨names dir, fun _ => true⟩ dir := List.Perm.refl _
      obtain ⟨stored, more⟩ := store_frame_count (tick count small) count dir fresh
      refine ⟨labels ++ [.store true ⟨names dir, fun _ => true⟩ (tick count small) count], _,
        ?_, more.trans (by rw [counted]), ?_⟩
      · rw [exec_append, ran, Option.bind_some, exec_cons, frameStep, if_pos scan, if_pos rfl,
          trim_frames_idle _ dir scan (by omega)]
        rfl
      · intro file member
        rw [stored] at member
        rcases List.mem_append.mp member with older | newest
        · obtain ⟨number, bound, earlier, name⟩ := named file older
          exact ⟨number, bound, Nat.lt_succ_of_lt earlier, name⟩
        · rw [List.mem_singleton.mp newest]
          exact ⟨count, small, Nat.lt_succ_self count, rfl⟩

/-- A thousand and one payloads, and a hundred and one frames. -/
theorem offline_stores_exceed :
    ¬ (∀ world, Reachable (queueStep offline) QueueStarts world →
        countLines world.disk.queue ≤ maxOfflineLines) ∧
      ¬ ∀ dir, Reachable frameStep FrameStarts dir → frameCount dir ≤ maxOfflineFrames := by
  constructor
  · intro always
    obtain ⟨world, reached, count⟩ := queue_overflows offline ()
    have bound := always world reached
    omega
  · intro always
    obtain ⟨labels, dir, ran, count, _⟩ := frames_fill (maxOfflineFrames + 1) le_rfl
    have bound := always dir ⟨[], labels, rfl, ran⟩
    omega

end SensorNode.OfflineBounds
