import SensorNode.QueueDelivery

/-!
`store_locally` on a disk that may keep only the front of a line. The append is an
`fprintf`, an `fflush` and an `fclose`, none of them checked, so a call is given by how
many bytes of its line land. What a run of calls has stored is read back by a drain to
a server that accepts it.
-/

namespace SensorNode.TornAppend

open LineStream LineLoss OfflineQueue DrainRewrite QueueDelivery PayloadText ReadingStore

universe u
variable {σ : Type u}

/-- A text like those of `create_json_payload`: a C string that `fgets` reads back whole. -/
structure Json where
  bytes : Bytes
  noNul : nul ∉ bytes
  present : bytes ≠ []
  short : bytes.length ≤ lineRoom

def Json.line (json : Json) : Bytes := json.bytes ++ [newline]

def Json.ofStore (store : DataStore) (now : Int64) : Json :=
  ⟨payloadText store now, payloadText_noNul store now, payloadText_nonempty store now,
    (payloadText_length store now).trans (by decide)⟩

/-- The texts handed to `store_locally` are such. -/
theorem createJsonPayload_json (store : DataStore) (now : Int64) :
    createJsonPayload true store now = some (Json.ofStore store now).bytes :=
  createJsonPayload_complete store now

/-- One call: its argument, what the system answers, and how much of the line lands. -/
structure Call where
  jsonData : Option Json
  io : StoreIo
  lands : Nat

structure Outcome (σ : Type u) where
  returned : Bool
  found : Bytes
  world : World σ

def queueFile (world : World σ) : Bytes := world.disk.queue.getD []

def appendLine (lands : Nat) (json : Json) (world : World σ) : World σ :=
  { world with
    disk := { world.disk with queue := some (queueFile world ++ json.line.take lands) }
    log := world.log ++ [.append json.bytes] }

def tornStoreWithSpace (call : Call) (json : Json) (world : World σ) : Outcome σ :=
  if call.io.parentDir then
    let trimmed := trimOfflineQueue world
    if call.io.opens then
      -- 1 is returned whatever has landed.
      ⟨true, queueFile trimmed, appendLine call.lands json trimmed⟩
    else ⟨false, queueFile trimmed, trimmed⟩
  else ⟨false, queueFile world, world⟩

def tornStoreLocally (call : Call) (world : World σ) : Outcome σ :=
  match call.jsonData with
  | none => ⟨false, queueFile world, world⟩
  | some json =>
      if call.io.spaceBefore then tornStoreWithSpace call json world
      else
        let trimmed := trimOfflineQueue world
        if call.io.spaceAfter then tornStoreWithSpace call json trimmed
        else
          let dropped := trimmed.run [.drop json.bytes]
          ⟨false, queueFile dropped, dropped⟩

/-- The whole line is in the file, behind what was there. -/
def Landed (json : Json) (outcome : Outcome σ) : Prop :=
  queueFile outcome.world = outcome.found ++ json.line

instance (json : Json) (outcome : Outcome σ) : Decidable (Landed json outcome) :=
  inferInstanceAs (Decidable (_ = _))

def storeRun : World σ → List Call → World σ
  | world, [] => world
  | world, call :: rest => storeRun (tornStoreLocally call world).world rest

/-- Every call returns 1 exactly when its whole line is in the file. -/
def Honest : World σ → List Call → Prop
  | _, [] => True
  | world, call :: rest =>
      (∀ json, call.jsonData = some json →
        ((tornStoreLocally call world).returned = true ↔
          Landed json (tornStoreLocally call world))) ∧
      Honest (tornStoreLocally call world).world rest

def landedText (call : Call) (world : World σ) : Option Bytes :=
  call.jsonData.bind fun json =>
    if Landed json (tornStoreLocally call world) then some json.bytes else none

def appended : World σ → List Call → List Bytes
  | _, [] => []
  | world, call :: rest =>
      (landedText call world).toList ++ appended (tornStoreLocally call world).world rest

def readBack (remote : Remote σ) (url : Bytes) (world : World σ) : List Bytes :=
  sentTexts (drainQueue remote url .good world.remote world.disk.queue).ops

/-- Each of the texts is a line that a trim has evicted or that a drain reads back. -/
def Accounted (remote : Remote σ) (url : Bytes) (world : World σ) (texts : List Bytes) : Prop :=
  texts.Sublist ((evictedLines world.log).map chomp ++ readBack remote url world)

def appends (io : StoreIo) : Bool :=
  (io.spaceBefore || io.spaceAfter) && io.parentDir && io.opens

/-- If the queue file is opened the whole line lands, and it is one line. -/
def Call.Whole (call : Call) : Prop :=
  ∀ json, call.jsonData = some json → appends call.io = true →
    json.bytes.length < call.lands ∧ newline ∉ json.bytes

def Starts (world : World σ) : Prop :=
  ∃ texts, queueFile world = framed texts ∧ ∀ text ∈ texts, Line text

/-! ## One call -/

theorem appendLine_whole (lands : Nat) (json : Json) (world : World σ)
    (whole : json.bytes.length < lands) :
    appendLine lands json world = world.run [.append json.bytes] := by
  have all : json.line.take lands = json.line := by
    apply List.take_of_length_le
    rw [Json.line, List.length_append]
    exact whole
  rw [appendLine, all]
  rfl

/-- Where appends do not fail this is the routine of the offline queue. -/
theorem tornStoreLocally_whole (call : Call) (json : Json) (world : World σ)
    (given : call.jsonData = some json) (whole : json.bytes.length < call.lands) :
    (tornStoreLocally call world).world = storeLocally call.io world json.bytes := by
  have once (start : World σ) :
      (tornStoreWithSpace call json start).world = storeWithSpace call.io start json.bytes := by
    simp only [tornStoreWithSpace, storeWithSpace, appendLine_whole _ json _ whole]
    split
    · split <;> rfl
    · rfl
  simp only [tornStoreLocally, given, storeLocally]
  split
  · exact once world
  · split
    · exact once _
    · rfl

/-- What a call has done before its append: trims, and a dropped payload. -/
inductive Trimmed (world : World σ) : World σ → Prop where
  | same : Trimmed world world
  | trim {base : World σ} (before : Trimmed world base) : Trimmed world (trimOfflineQueue base)
  | drop {base : World σ} (before : Trimmed world base) (payload : Bytes) :
      Trimmed world (base.run [.drop payload])

theorem torn_store_cases (call : Call) (json : Json) (world : World σ)
    (given : call.jsonData = some json) :
    ∃ base, Trimmed world base ∧
      ((appends call.io = true ∧ tornStoreLocally call world =
          ⟨true, queueFile base, appendLine call.lands json base⟩) ∨
        (appends call.io = false ∧
          tornStoreLocally call world = ⟨false, queueFile base, base⟩)) := by
  have once (start : World σ) (reached : Trimmed world start) :
      ∃ base, Trimmed world base ∧
        (((call.io.parentDir && call.io.opens) = true ∧ tornStoreWithSpace call json start =
            ⟨true, queueFile base, appendLine call.lands json base⟩) ∨
          ((call.io.parentDir && call.io.opens) = false ∧
            tornStoreWithSpace call json start = ⟨false, queueFile base, base⟩)) := by
    cases dir : call.io.parentDir with
    | false => exact ⟨start, reached, .inr ⟨rfl, by simp [tornStoreWithSpace, dir]⟩⟩
    | true =>
        refine ⟨trimOfflineQueue start, reached.trim, ?_⟩
        cases opens : call.io.opens with
        | true => exact .inl ⟨rfl, by simp [tornStoreWithSpace, dir, opens]⟩
        | false => exact .inr ⟨rfl, by simp [tornStoreWithSpace, dir, opens]⟩
  cases before : call.io.spaceBefore with
  | true =>
      simpa [tornStoreLocally, given, before, appends] using once world .same
  | false =>
      cases after : call.io.spaceAfter with
      | true =>
          simpa [tornStoreLocally, given, before, after, appends] using
            once (trimOfflineQueue world) Trimmed.same.trim
      | false =>
          refine ⟨_, Trimmed.same.trim.drop json.bytes, .inr ⟨?_, ?_⟩⟩
          · simp [appends, before, after]
          · simp [tornStoreLocally, given, before, after]

theorem line_take_iff (json : Json) (lands : Nat) :
    json.line.take lands = json.line ↔ json.bytes.length < lands := by
  rw [List.take_eq_self_iff, Json.line, List.length_append]
  exact Nat.succ_le_iff

theorem queueFile_append (lands : Nat) (json : Json) (world : World σ) :
    queueFile (appendLine lands json world) = queueFile world ++ json.line.take lands := rfl

section
variable (call : Call) (json : Json) (world : World σ) (given : call.jsonData = some json)
include given

theorem returned_iff : (tornStoreLocally call world).returned = true ↔ appends call.io = true := by
  obtain ⟨base, _, ⟨opened, done⟩ | ⟨refused, done⟩⟩ := torn_store_cases call json world given
  · simp [done, opened]
  · simp [done, refused]

theorem landed_iff :
    Landed json (tornStoreLocally call world) ↔
      appends call.io = true ∧ json.bytes.length < call.lands := by
  obtain ⟨base, _, ⟨opened, done⟩ | ⟨refused, done⟩⟩ := torn_store_cases call json world given
  · rw [Landed, done, queueFile_append, List.append_cancel_left_eq, line_take_iff]
    simp [opened]
  · have nothing : queueFile base ≠ queueFile base ++ json.line := by
      simp [Json.line]
    rw [Landed, done, refused]
    simpa using nothing

end

/-! ## A run -/

/-- The file holds one payload per line; with the lines evicted so far, these in order. -/
def Holds (world : World σ) (all : List Bytes) : Prop :=
  ∃ texts, queueFile world = framed texts ∧ (∀ text ∈ texts, Line text) ∧
    (evictedLines world.log).map chomp ++ texts = all

theorem Holds.trimmed {world base : World σ} {all : List Bytes} (holds : Holds world all)
    (trims : Trimmed world base) : Holds base all := by
  induction trims with
  | same => exact holds
  | @trim base before ih =>
      obtain ⟨texts, file, lines, whole⟩ := ih
      obtain ⟨left, grows, _, _⟩ := trimOfflineQueue_lines texts base lines file
      refine ⟨_, left, fun text member => lines text (List.mem_of_mem_drop member), ?_⟩
      have cut : ((texts.take (texts.length - maxOfflineLines)).map
          fun text => text ++ [newline]).map chomp =
            texts.take (texts.length - maxOfflineLines) := by
        rw [List.map_map]
        refine (List.map_congr_left fun text member => ?_).trans (List.map_id _)
        obtain ⟨plain, whole, _⟩ := lines text (List.mem_of_mem_take member)
        exact chomp_line text plain whole
      rw [grows.evicted, List.map_append, cut, List.append_assoc, List.take_append_drop]
      exact whole
  | @drop base before payload ih =>
      obtain ⟨texts, file, lines, whole⟩ := ih
      refine ⟨texts, file, lines, ?_⟩
      rw [World.run, evictedLines_append]
      simpa [evictedLines] using whole

theorem Holds.append {world : World σ} {all : List Bytes} (holds : Holds world all) (json : Json)
    (lands : Nat) (whole : json.bytes.length < lands) (plain : newline ∉ json.bytes) :
    Holds (appendLine lands json world) (all ++ [json.bytes]) := by
  obtain ⟨texts, file, lines, same⟩ := holds
  refine ⟨texts ++ [json.bytes], ?_, ?_, ?_⟩
  · rw [appendLine_whole lands json world whole, framed_append, ← file]
    simp [queueFile, World.run, effect, framed]
  · intro text member
    rcases List.mem_append.mp member with older | newest
    · exact lines text older
    · rw [List.mem_singleton.mp newest]
      exact ⟨plain, json.noNul, json.present, json.short⟩
  · rw [appendLine, evictedLines_append, ← same]
    simp [evictedLines]

theorem Holds.step {world : World σ} {all : List Bytes} (holds : Holds world all) (call : Call)
    (whole : call.Whole) :
    Holds (tornStoreLocally call world).world (all ++ (landedText call world).toList) := by
  cases given : call.jsonData with
  | none => simpa [tornStoreLocally, landedText, given] using holds
  | some json =>
      have landed := landed_iff call json world given
      obtain ⟨base, trims, ⟨opened, done⟩ | ⟨refused, done⟩⟩ :=
        torn_store_cases call json world given
      · obtain ⟨lands, plain⟩ := whole json given opened
        have text : landedText call world = some json.bytes := by
          simp [landedText, given, landed.mpr ⟨opened, lands⟩]
        rw [text, done]
        exact (holds.trimmed trims).append json call.lands lands plain
      · have text : landedText call world = none := by
          simp [landedText, given, landed, refused]
        rw [text, done]
        simpa using holds.trimmed trims

theorem Holds.run {world : World σ} {all : List Bytes} (holds : Holds world all)
    (calls : List Call) (whole : ∀ call ∈ calls, call.Whole) :
    Holds (storeRun world calls) (all ++ appended world calls) := by
  induction calls generalizing world all with
  | nil => simpa [storeRun, appended] using holds
  | cons call rest ih =>
      obtain ⟨first, later⟩ := List.forall_mem_cons.mp whole
      rw [appended, ← List.append_assoc]
      exact ih (holds.step call first) later

theorem honest_iff (world : World σ) (calls : List Call) :
    Honest world calls ↔ ∀ call ∈ calls, ∀ json, call.jsonData = some json →
      appends call.io = true → json.bytes.length < call.lands := by
  induction calls generalizing world with
  | nil => simp [Honest]
  | cons call rest ih =>
      rw [Honest, ih, List.forall_mem_cons]
      apply and_congr_left'
      constructor
      · intro agrees json given opened
        have returned := (returned_iff call json world given).mpr opened
        exact ((landed_iff call json world given).mp ((agrees json given).mp returned)).2
      · intro lands json given
        rw [returned_iff call json world given, landed_iff call json world given]
        exact ⟨fun opened => ⟨opened, lands json given opened⟩, And.left⟩

theorem mem_appended (world : World σ) (calls : List Call) (call : Call) (member : call ∈ calls)
    (json : Json) (given : call.jsonData = some json) (opened : appends call.io = true)
    (lands : json.bytes.length < call.lands) : json.bytes ∈ appended world calls := by
  induction calls generalizing world with
  | nil => cases member
  | cons first rest ih =>
      rw [appended]
      rcases List.mem_cons.mp member with same | later
      · subst same
        have landed := (landed_iff call json world given).mpr ⟨opened, lands⟩
        exact List.mem_append_left _ (by simp [landedText, given, landed])
      · exact List.mem_append_right _ (ih _ later)

/-! ## Reading back -/

theorem readBack_lines (keyFile : σ → Option Bytes) (created : σ → Request → Bool)
    (next : σ → Request → σ) (url : Bytes) (world : World σ) (texts : List Bytes)
    (file : queueFile world = framed texts) (lines : ∀ text ∈ texts, Line text) :
    readBack (acceptingRemote keyFile created next) url world = texts := by
  cases queue : world.disk.queue with
  | none =>
      rw [queueFile, queue] at file
      have empty : texts = [] := by
        cases texts with
        | nil => rfl
        | cons text texts => simp [framed_cons] at file
      simp [readBack, queue, drainQueue, sentTexts, empty]
  | some content =>
      rw [queueFile, queue, Option.getD_some] at file
      obtain ⟨_, ops⟩ := drainQueue_lines (acceptingRemote keyFile created next) url texts
        world.remote lines
      rw [readBack, queue, file, ops, (drainLines_log _ _).2.1, accepting_delivers]
      exact List.take_of_length_le (Nat.le_succ _)

theorem accounted_plain (remote : Remote σ) (url : Bytes) (world : World σ) (texts : List Bytes)
    (accounted : Accounted remote url world texts) : ∀ text ∈ texts, newline ∉ text := by
  intro text member
  rcases List.mem_append.mp (accounted.subset member) with evicted | sent
  · obtain ⟨line, _, rfl⟩ := List.mem_map.mp evicted
    exact (chomp_clean line).1
  · obtain ⟨sends, log, plain⟩ := drainOfflineQueue_sends remote url world
    have same : readBack remote url world = sends :=
      List.append_cancel_left ((sentTexts_append _ _).symm.trans log)
    exact plain text (same ▸ sent)

/-- In every run the calls tell the truth and no stored payload is lost exactly when no
append is cut short and each payload is one line. -/
theorem appends_sound_iff (keyFile : σ → Option Bytes) (created : σ → Request → Bool)
    (next : σ → Request → σ) (url : Bytes) (world : World σ) (calls : List Call)
    (starts : Starts world) :
    (Honest world calls ∧ Accounted (acceptingRemote keyFile created next) url
        (storeRun world calls) (appended world calls)) ↔
      ∀ call ∈ calls, call.Whole := by
  constructor
  · rintro ⟨honest, accounted⟩ call member json given opened
    have lands := (honest_iff world calls).mp honest call member json given opened
    exact ⟨lands, accounted_plain _ _ _ _ accounted _
      (mem_appended world calls call member json given opened lands)⟩
  · intro whole
    refine ⟨(honest_iff world calls).mpr fun call member json given opened =>
      (whole call member json given opened).1, ?_⟩
    obtain ⟨first, started, linesFirst⟩ := starts
    have holds : Holds world ((evictedLines world.log).map chomp ++ first) :=
      ⟨first, started, linesFirst, rfl⟩
    obtain ⟨texts, file, lines, same⟩ := holds.run calls whole
    rw [Accounted, readBack_lines keyFile created next url _ texts file lines, same]
    exact List.sublist_append_right _ _

def emptyQueue : World Unit := ⟨⟨none, none, none⟩, [], ()⟩

def reachable : Remote Unit :=
  acceptingRemote (fun _ => none) (fun _ _ => false) fun state _ => state

def first : Json := ⟨ascii "\x7b\"a\":1\x7d", by decide, by decide, by decide⟩
def second : Json := ⟨ascii "\x7b\"b\":2\x7d", by decide, by decide, by decide⟩

def tornCalls : List Call := [⟨some first, StoreIo.good, 3⟩, ⟨some second, StoreIo.good, 8⟩]

def wholeCalls : List Call := [⟨some first, StoreIo.good, 8⟩, ⟨some second, StoreIo.good, 8⟩]

theorem appends_sound_two :
    Honest emptyQueue wholeCalls ∧ Accounted reachable (ascii "http://server/data")
      (storeRun emptyQueue wholeCalls) (appended emptyQueue wholeCalls) := by
  refine (appends_sound_iff _ _ _ _ emptyQueue wholeCalls ⟨[], rfl, nofun⟩).mpr ?_
  intro call member json given _
  simp only [wholeCalls, List.mem_cons, List.not_mem_nil, or_false] at member
  rcases member with rfl | rfl <;> cases given <;> decide

/-- Both calls return 1; the file is one line, and neither payload is read back. -/
theorem torn_append_corrupts :
    ¬ Honest emptyQueue tornCalls ∧
      ¬ Accounted reachable (ascii "http://server/data") (storeRun emptyQueue tornCalls)
        (appended emptyQueue tornCalls) := by
  constructor
  · intro honest
    have lands := (honest_iff emptyQueue tornCalls).mp honest ⟨some first, StoreIo.good, 3⟩
      List.mem_cons_self first rfl (by decide)
    exact absurd lands (by decide)
  · unfold Accounted
    decide +kernel

end SensorNode.TornAppend
