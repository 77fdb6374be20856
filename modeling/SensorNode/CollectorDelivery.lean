import SensorNode.DerivedHistory
import SensorNode.PayloadLedger

/-!
The collector as a whole: the two threads around the store, and web_sender's payloads on their way
to the server or into the offline queue. Sending and draining touch the files and the network only,
so the listener may append between any two steps. Every accepted reading is in exactly one place,
and one appended between a serialisation and the reset after it is nowhere else.
-/

namespace SensorNode.CollectorDelivery

open LineStream ReadingStore PayloadText StepSystem CollectorThreads DerivedHistory
open OfflineQueue DrainRewrite QueueDelivery PayloadLedger

universe u
variable {σ : Type u}

/-! ## The readings of a payload -/

/-- The reading is appended after the store has been serialised and before it is reset. -/
def lateSerials (state : State) : Label → List Nat
  | .append _ =>
      if state.sender.holdsPayload = true ∧ state.store.count < maxSensors then [state.next] else []
  | _ => []

/-- The readings in the store that no payload holds and no reset will lose. -/
def waiting (state : State) : List Nat :=
  if state.sender.holdsPayload then [] else serials state.tags

/-- What the resets erase has been serialised, or was appended too late for that. -/
structure Tracked (state : State) (late : List Nat) : Prop where
  cells : state.tags.length = state.store.count
  appended : state.erased ++ serials state.tags = List.range state.next
  idle : state.sender.holdsPayload = false →
    (state.payloads.flatMap Payload.serials ++ late).Perm state.erased
  holding : state.sender.holdsPayload = true →
    (state.payloads.flatMap Payload.serials ++ late).Perm (state.erased ++ serials state.tags)

theorem tracked_initial : Tracked initial [] := ⟨rfl, rfl, fun _ => .refl _, nofun⟩

theorem tracked_append (state : State) (late : List Nat) (reading : Bytes × Float32) (now : Int64)
    (tracked : Tracked state late) :
    Tracked (appendStep state reading now) (late ++ lateSerials state (.append now)) := by
  unfold appendStep lateSerials
  by_cases room : state.store.count < maxSensors
  · have grown : (appendReading state.store reading now).count = state.store.count + 1 := by
      rw [DataStore.count, appendReading, DataStore.push_data,
        if_pos (show state.store.data.length < maxSensors from room), List.length_append]
      rfl
    have last : serials (state.tags ++ [some state.next]) = serials state.tags ++ [state.next] := by
      rw [serials_append]
      rfl
    rw [if_pos room]
    refine ⟨?_, ?_, fun idle => ?_, fun holds => ?_⟩
    · rw [List.length_append, tracked.cells, grown, List.length_singleton]
    · rw [last, ← List.append_assoc, tracked.appended, List.range_succ]
    · have still : state.sender.holdsPayload = false := idle
      rw [if_neg (by simp [still]), List.append_nil]
      exact tracked.idle still
    · have still : state.sender.holdsPayload = true := holds
      rw [if_pos ⟨still, room⟩, last, ← List.append_assoc, ← List.append_assoc]
      exact (tracked.holding still).append_right _
  · rw [if_neg room, if_neg (fun both => room both.2), List.append_nil]
    exact ⟨tracked.cells, tracked.appended, tracked.idle, tracked.holding⟩

theorem tracked_derive (libm : Libm) (state : State) (late : List Nat) (clock : DerivedClock)
    (tracked : Tracked state late) (computing : state.sender = .computing) :
    Tracked (deriveStep libm state clock) late := by
  have grown : state.store.count ≤
      (computeDerivedMetrics libm state.store state.cache clock).1.count :=
    (computeDerivedMetrics_extends libm state.store state.cache clock).length_le
  have idle := tracked.idle (by rw [computing]; rfl)
  refine ⟨?_, ?_, fun _ => idle, nofun⟩
  · simp only [deriveStep, List.length_append, List.length_replicate, tracked.cells]
    omega
  · simp only [deriveStep, serials_append, serials_derived, List.append_nil]
    exact tracked.appended

theorem tracked_serialise (state : State) (late : List Nat) (memory : Bool) (now : Int64)
    (tracked : Tracked state late) (serialising : state.sender = .serialising) :
    Tracked (serialiseStep state memory now) late := by
  have idle := tracked.idle (by rw [serialising]; rfl)
  unfold serialiseStep
  cases createJsonPayload memory state.store now with
  | none => exact ⟨tracked.cells, tracked.appended, fun _ => idle, nofun⟩
  | some text =>
      refine ⟨tracked.cells, tracked.appended, nofun, fun _ => ?_⟩
      have whole : state.tags.take (serialisedCount state.store now) = state.tags := by
        rw [serialisedCount_complete, ← tracked.cells, List.take_length]
      simp only [List.flatMap_append, List.flatMap_cons, List.flatMap_nil, List.append_nil, whole]
      rw [List.append_assoc]
      exact (List.perm_append_comm.append_left _).trans
        (List.append_assoc _ _ _ ▸ idle.append_right (serials state.tags))

theorem tracked_step (libm : Libm) (state : State) (late : List Nat) (label : Label) (next : State)
    (tracked : Tracked state late) (moved : step libm state label = some next) :
    Tracked next (late ++ lateSerials state label) := by
  have same (kept : Tracked next late) (none : lateSerials state label = []) :
      Tracked next (late ++ lateSerials state label) := by
    rw [none, List.append_nil]
    exact kept
  cases step_moves libm state label next moved with
  | append reading now => exact tracked_append state late reading now tracked
  | ignored => exact same tracked rfl
  | received =>
      exact same ⟨tracked.cells, tracked.appended, tracked.idle, tracked.holding⟩ rfl
  | test testing =>
      have idle := tracked.idle (by rw [testing]; rfl)
      refine same ⟨tracked.cells, tracked.appended, fun _ => idle, fun holds => ?_⟩ rfl
      simp only at holds
      split at holds <;> cases holds
  | derive clock computing =>
      exact same (tracked_derive libm state late clock tracked computing) rfl
  | serialise memory now serialising =>
      exact same (tracked_serialise state late memory now tracked serialising) rfl
  | send sent sending =>
      have holding := tracked.holding (by rw [sending]; rfl)
      exact same ⟨tracked.cells, tracked.appended, nofun, fun _ => holding⟩ rfl
  | reset sent resetting =>
      have holding := tracked.holding (by rw [resetting]; rfl)
      refine same ⟨rfl, (List.append_nil _).trans tracked.appended, fun _ => holding,
        fun holds => ?_⟩ rfl
      simp only at holds
      split at holds <;> cases holds
  | drain draining =>
      have idle := tracked.idle (by rw [draining]; rfl)
      exact same ⟨tracked.cells, tracked.appended, fun _ => idle, nofun⟩ rfl

theorem tracked_readings (state : State) (late : List Nat) (tracked : Tracked state late) :
    (state.payloads.flatMap Payload.serials ++ waiting state ++ late).Perm
      (List.range state.next) := by
  rw [← tracked.appended, waiting]
  cases holds : state.sender.holdsPayload with
  | true =>
      rw [if_pos rfl, List.append_nil]
      exact tracked.holding holds
  | false =>
      rw [if_neg Bool.false_ne_true, List.append_assoc]
      exact (List.perm_append_comm.append_left _).trans
        ((List.append_assoc _ _ _ ▸ (tracked.idle holds).append_right _))

/-! ## One payload and the queue -/

/-- A payload that no server took is lost without a trace when the directory or the queue file
cannot be opened. -/
def filing (sent : Bool) (io : StoreIo) : Bool :=
  sent || !(io.spaceBefore || io.spaceAfter) || (io.parentDir && io.opens)

theorem storeLocally_filed (io : StoreIo) (payload : Bytes) (world : World σ)
    (files : filing false io = true) :
    storeLocally io world payload =
      storeLocally ⟨io.spaceBefore, io.spaceAfter, true, true⟩ world payload := by
  obtain ⟨before, after, parent, opens⟩ := io
  cases before <;> cases after <;> cases parent <;> cases opens <;> first | rfl | cases files

section
variable (remote : Remote σ) (text : Nat → Bytes) (total : Nat)

theorem refines_congr (other : Nat → Bytes) (ledger : Ledger) (world : World σ)
    (accounts : Accounts total ledger) (refines : Refines text ledger world)
    (same : ∀ number < total, other number = text number) : Refines other ledger world := by
  have inside (number : Nat)
      (member : number ∈ ledger.acked ++ ledger.queued ++ ledger.evicted ++ ledger.dropped) :
      other number = text number :=
    same number (List.mem_range.mp (accounts.conserved.subset member))
  constructor
  · rw [refines.acked]
    exact List.map_congr_left fun number member => (inside number (by simp [member])).symm
  · rw [refines.queued]
    congr 1
    exact List.map_congr_left fun number member => (inside number (by simp [member])).symm
  · rw [refines.evicted]
    exact List.map_congr_left fun number member => by rw [inside number (by simp [member])]
  · rw [refines.dropped]
    exact List.map_congr_left fun number member => (inside number (by simp [member])).symm

theorem refines_drain (url : Bytes) (ledger : Ledger) (world : World σ)
    (lines : ∀ number < total, Line (text number)) (accounts : Accounts total ledger)
    (refines : Refines text ledger world) :
    ∃ after, Accounts total after ∧ Refines text after (drainOfflineQueue remote url world) := by
  have queued : ∀ line ∈ ledger.queued.map text, Line line := by
    intro line member
    obtain ⟨number, inQueue, rfl⟩ := List.mem_map.mp member
    exact lines number (accounts_bound total ledger accounts number inQueue)
  obtain ⟨file, drained, -⟩ := drainOfflineQueue_lines remote url (ledger.queued.map text) world
    queued refines.queued
  exact ⟨_, accounts_deliver total ledger _ accounts,
    refines_deliver text ledger world _ _ refines file drained⟩

variable (lines : ∀ number < total + 1, Line (text number))
include lines

theorem refines_unfiled (io : StoreIo) (payload : Bytes) (ledger : Ledger) (world : World σ)
    (space : (io.spaceBefore || io.spaceAfter) = true) (closed : (io.parentDir && io.opens) = false)
    (accounts : Accounts total ledger) (refines : Refines text ledger world) :
    ∃ after, Accounts total after ∧ Refines text after (storeLocally io world payload) := by
  have trimmed (ledger : Ledger) (world : World σ) (accounts : Accounts total ledger)
      (refines : Refines text ledger world) :
      ∃ after, Accounts total after ∧ Refines text after (trimOfflineQueue world) :=
    ⟨_, accounts_evict total ledger _ accounts,
      refines_trim text total lines ledger world accounts refines⟩
  have stored (ledger : Ledger) (world : World σ) (accounts : Accounts total ledger)
      (refines : Refines text ledger world) :
      ∃ after, Accounts total after ∧ Refines text after (storeWithSpace io world payload) := by
    unfold storeWithSpace
    cases parent : io.parentDir with
    | false => exact ⟨ledger, accounts, refines⟩
    | true =>
        have opens : io.opens = false := by simpa [parent] using closed
        rw [opens]
        exact trimmed ledger world accounts refines
  unfold storeLocally
  cases before : io.spaceBefore with
  | true => exact stored ledger world accounts refines
  | false =>
      have after : io.spaceAfter = true := by simpa [before] using space
      obtain ⟨next, kept, same⟩ := trimmed ledger world accounts refines
      rw [after]
      exact stored next _ kept same

/-- After send_with_retry_or_store the payload is filed, or nowhere. -/
theorem refines_send (url : Bytes) (io : StoreIo) (ledger : Ledger) (world : World σ)
    (accounts : Accounts total ledger) (refines : Refines text ledger world) :
    ∃ after,
      Accounts (if filing (sendWithRetryOrStore remote url (text total) io world).1 io
        then total + 1 else total) after ∧
      Refines text after (sendWithRetryOrStore remote url (text total) io world).2 := by
  obtain ⟨disk, grows⟩ := sendAttempts_log remote url (text total) retryCount world
  rcases outcome : sendAttempts remote url (text total) retryCount world with ⟨sent, tried⟩
  rw [outcome] at disk grows
  simp only [sendWithRetryOrStore, outcome]
  cases sent with
  | true =>
      refine ⟨ledger.ack total, accounts_ack total ledger accounts, ?_⟩
      constructor
      · rw [if_pos rfl, grows.acked, refines.acked, Ledger.ack, List.map_append]
        rfl
      · rw [if_pos rfl, disk]
        exact refines.queued
      · rw [if_pos rfl, grows.evicted, refines.evicted, List.append_nil]
        rfl
      · rw [if_pos rfl, grows.dropped, refines.dropped, List.append_nil]
        rfl
  | false =>
      -- The attempts leave the files as they were.
      have unsent : Refines text ledger tried := by
        constructor
        · exact grows.acked.trans (by rw [refines.acked]; exact List.append_nil _)
        · rw [disk]
          exact refines.queued
        · exact grows.evicted.trans (by rw [refines.evicted]; exact List.append_nil _)
        · exact grows.dropped.trans (by rw [refines.dropped]; exact List.append_nil _)
      simp only [Bool.false_eq_true, if_false]
      cases files : filing false io with
      | true =>
          rw [storeLocally_filed io _ tried files]
          exact refines_storeLocally text total lines _ _ ledger tried accounts unsent
      | false =>
          simp only [filing, Bool.false_or, Bool.or_eq_false_iff, Bool.not_eq_false'] at files
          exact refines_unfiled text total lines io _ ledger tried files.1 files.2 accounts unsent

end

/-! ## Threads and files together -/

structure Node (σ : Type u) where
  threads : State
  world : World σ
  /-- What was appended too late for its payload. -/
  late : List Nat
  /-- The payloads in the order they were filed, after what the queue held at the start. -/
  filed : List Payload
  unfiled : List Payload

/-- A step of a thread, or web_sender passing on its last payload or draining the queue. -/
inductive Event where
  | thread (label : Label)
  | send (url : Bytes) (io : StoreIo)
  | drain (url : Bytes)

section
variable (remote : Remote σ) (libm : Libm)

def Node.file (node : Node σ) (payload : Payload) (files : Bool) : Node σ :=
  if files then { node with filed := node.filed ++ [payload] }
  else { node with unfiled := node.unfiled ++ [payload] }

def act (node : Node σ) : Event → Option (Node σ)
  | .thread (.send _) | .thread .drain => none
  | .thread label =>
      (step libm node.threads label).map fun threads =>
        { node with threads := threads, late := node.late ++ lateSerials node.threads label }
  | .send url io =>
      node.threads.payloads.getLast?.bind fun payload =>
        let outcome := sendWithRetryOrStore remote url payload.text io node.world
        (step libm node.threads (.send outcome.1)).map fun threads =>
          { node with threads := threads, world := outcome.2 }.file payload (filing outcome.1 io)
  | .drain url =>
      (step libm node.threads .drain).map fun threads =>
        { node with threads := threads, world := drainOfflineQueue remote url node.world }

/-- The payload between its serialisation and its sending. -/
def flying (state : State) : List Payload :=
  if state.sender = .sending then state.payloads.getLast?.toList else []

def textOf (filed : List Payload) (number : Nat) : Bytes := (filed.getD number ⟨[], []⟩).text

def serialsOf (filed : List Payload) (number : Nat) : List Nat :=
  (filed.getD number ⟨[], []⟩).serials

/-- Before its threads start, with the payloads an earlier run left in the queue. -/
structure Begins (earlier : List Bytes) (node : Node σ) : Prop where
  threads : node.threads = initial
  queue : node.world.disk.queue.getD [] = framed earlier
  log : node.world.log = []
  late : node.late = []
  filed : node.filed = earlier.map fun text => ⟨text, []⟩
  unfiled : node.unfiled = []

/-- No sensor name received has a newline in it. -/
def PlainNames (event : Event) : Prop :=
  match event with
  | .thread (.receive datagram) => ∀ reading ∈ parseDatagram datagram, newline ∉ reading.1
  | _ => True

instance (event : Event) : Decidable (PlainNames event) := by
  unfold PlainNames
  split <;> infer_instance

structure Delivered (earlier : List Bytes) (node : Node σ) : Prop where
  tracked : Tracked node.threads node.late
  stored : SingleLine node.threads.store
  pending : ∀ reading, node.threads.listener = .appending reading → newline ∉ reading.1
  lines : ∀ payload ∈ node.threads.payloads, Line payload.text
  split : ((earlier.map fun text => (⟨text, []⟩ : Payload)) ++ node.threads.payloads).Perm
    (node.filed ++ node.unfiled ++ flying node.threads)
  files : ∃ ledger, Accounts node.filed.length ledger ∧
    Refines (textOf node.filed) ledger node.world

theorem delivered_initial (earlier : List Bytes) (node : Node σ) (begins : Begins earlier node) :
    Delivered earlier node := by
  obtain ⟨threads, world, late, filed, unfiled⟩ := node
  obtain ⟨rfl, queue, log, rfl, rfl, rfl⟩ := begins
  refine ⟨tracked_initial, nofun, nofun, nofun, ?_, Ledger.initial earlier.length, ?_, ?_⟩
  · simp [flying, initial]
  · rw [List.length_map]
    exact ⟨by simp [Ledger.initial], List.pairwise_lt_range⟩
  · have empty : world.log = [] := log
    refine ⟨by rw [empty]; rfl, ?_, by rw [empty]; rfl, by rw [empty]; rfl⟩
    rw [show world.disk.queue.getD [] = framed earlier from queue]
    congr 1
    apply List.ext_getElem (by simp [Ledger.initial])
    intro number inEarlier inRange
    simp [Ledger.initial, textOf, List.getElem?_eq_getElem inEarlier]

theorem flying_idle (state : State) (idle : state.sender ≠ .sending) : flying state = [] :=
  if_neg idle

theorem singleLine_append (state : State) (reading : Bytes × Float32) (now : Int64)
    (stored : SingleLine state.store) (plain : newline ∉ reading.1) :
    SingleLine (appendStep state reading now).store := by
  unfold appendStep
  split
  · simp only [appendReading, SingleLine, DataStore.push_data]
    split
    · intro entry member
      rcases List.mem_append.mp member with before | new
      · exact stored entry before
      · obtain rfl := List.mem_singleton.mp new
        exact fun inName => plain ((cstring_sublist reading.1).subset (List.mem_of_mem_take inName))
    · exact stored
  · exact stored

theorem singleLine_derive (state : State) (clock : DerivedClock)
    (stored : SingleLine state.store) : SingleLine (deriveStep libm state clock).store := by
  have names : ∀ name ∈ derivedNames, newline ∉ name := by decide
  intro entry member
  have data : (deriveStep libm state clock).store.data = _ :=
    computed_data libm state.store state.cache clock
  rw [data] at member
  rcases List.mem_append.mp member with before | new
  · exact stored entry before
  · split at new
    · exact names _ (derivedEntries_names libm _ clock entry (List.mem_of_mem_take new))
    · cases new

theorem delivered_serialise (earlier : List Bytes) (node : Node σ) (memory : Bool) (now : Int64)
    (delivered : Delivered earlier node) (serialising : node.threads.sender = .serialising) :
    Delivered earlier { node with threads := serialiseStep node.threads memory now } := by
  obtain ⟨tracked, stored, pending, lines, split, files⟩ := delivered
  have idle : flying node.threads = [] := flying_idle _ (by rw [serialising]; decide)
  rw [idle, List.append_nil] at split
  have next := tracked_serialise _ _ memory now tracked serialising
  unfold serialiseStep at next ⊢
  cases returned : createJsonPayload memory node.threads.store now with
  | none =>
      rw [returned] at next
      refine ⟨next, stored, pending, lines, ?_, files⟩
      rwa [flying_idle _ (show Sender.testing ≠ .sending by decide), List.append_nil]
  | some text =>
      rw [returned] at next
      refine ⟨next, stored, pending, fun payload member => ?_, ?_, files⟩
      · rcases List.mem_append.mp member with before | new
        · exact lines payload before
        · obtain rfl := List.mem_singleton.mp new
          rw [createJsonPayload_some memory _ now text returned]
          exact payloadText_line _ now stored
      · simp only [flying, if_true, List.getLast?_append, List.getLast?_singleton, Option.some_or,
          Option.toList_some, ← List.append_assoc]
        exact split.append_right _

theorem delivered_quiet (earlier : List Bytes) (node : Node σ) (next : State) (late : List Nat)
    (delivered : Delivered earlier node) (tracked : Tracked next late)
    (stored : SingleLine next.store)
    (pending : ∀ reading, next.listener = .appending reading → newline ∉ reading.1)
    (same : next.payloads = node.threads.payloads) (still : flying next = flying node.threads) :
    Delivered earlier { node with threads := next, late := late } := by
  refine ⟨tracked, stored, pending, ?_, ?_, delivered.files⟩
  · rw [show ({ node with threads := next, late := late } : Node σ).threads.payloads = _ from same]
    exact delivered.lines
  · simp only [same, still]
    exact delivered.split

theorem delivered_thread (earlier : List Bytes) (node : Node σ) (label : Label) (next : State)
    (delivered : Delivered earlier node) (plain : PlainNames (.thread label))
    (notSend : ∀ sent, label ≠ .send sent) (notDrain : label ≠ .drain)
    (moved : step libm node.threads label = some next) :
    Delivered earlier { node with
      threads := next, late := node.late ++ lateSerials node.threads label } := by
  have tracked := tracked_step libm node.threads node.late label next delivered.tracked moved
  have before (busy : node.threads.sender ≠ .sending) : flying node.threads = [] :=
    flying_idle _ busy
  -- Only `send` and `drain` move payloads; the other steps keep them where they are.
  cases step_moves libm node.threads label next moved with
  | ignored =>
      exact delivered_quiet earlier node _ _ delivered tracked delivered.stored delivered.pending
        rfl rfl
  | received datagram reading receiving parsed =>
      refine delivered_quiet earlier node _ _ delivered tracked delivered.stored ?_ rfl rfl
      rintro other ⟨⟩
      exact plain reading parsed
  | append reading now appending =>
      refine delivered_quiet earlier node _ _ delivered tracked
        (singleLine_append _ reading now delivered.stored (delivered.pending reading appending))
        ?_ ?_ ?_
      all_goals
        unfold appendStep
        split
      · nofun
      · nofun
      all_goals rfl
  | test testing =>
      refine delivered_quiet earlier node _ _ delivered tracked delivered.stored delivered.pending
        rfl ?_
      rw [before (by rw [testing]; decide)]
      refine flying_idle _ ?_
      simp only
      split <;> decide
  | derive clock computing =>
      refine delivered_quiet earlier node _ _ delivered tracked
        (singleLine_derive libm _ clock delivered.stored) delivered.pending rfl ?_
      rw [before (by rw [computing]; decide)]
      exact flying_idle _ (show Sender.serialising ≠ .sending by decide)
  | serialise memory now serialising =>
      have nothing : node.late ++ lateSerials node.threads (.serialise memory now) = node.late :=
        List.append_nil _
      rw [nothing]
      exact delivered_serialise earlier node memory now delivered serialising
  | send sent => exact absurd rfl (notSend sent)
  | reset sent resetting =>
      refine delivered_quiet earlier node _ _ delivered tracked nofun delivered.pending rfl ?_
      rw [before (by rw [resetting]; nofun)]
      refine flying_idle _ ?_
      simp only
      split <;> decide
  | drain => exact absurd rfl notDrain

theorem textOf_before (filed : List Payload) (payload : Payload) (number : Nat)
    (before : number < filed.length) :
    textOf (filed ++ [payload]) number = textOf filed number := by
  rw [textOf, textOf, List.getD_eq_getElem?_getD, List.getElem?_append_left before,
    List.getD_eq_getElem?_getD]

theorem textOf_last (filed : List Payload) (payload : Payload) :
    textOf (filed ++ [payload]) filed.length = payload.text := by
  simp [textOf]

section
variable (earlier : List Bytes) (whole : ∀ text ∈ earlier, Line text)
include whole

theorem delivered_lines (node : Node σ) (delivered : Delivered earlier node) (payload : Payload)
    (member : payload ∈ node.filed ++ node.unfiled ++ flying node.threads) : Line payload.text := by
  rcases List.mem_append.mp (delivered.split.symm.subset member) with old | built
  · obtain ⟨text, inEarlier, rfl⟩ := List.mem_map.mp old
    exact whole text inEarlier
  · exact delivered.lines payload built

theorem filed_lines (node : Node σ) (delivered : Delivered earlier node) :
    ∀ number < node.filed.length, Line (textOf node.filed number) := by
  intro number before
  rw [textOf, List.getD_eq_getElem?_getD, List.getElem?_eq_getElem before]
  exact delivered_lines earlier whole node delivered _ (by simp)

theorem delivered_send (node : Node σ) (url : Bytes) (io : StoreIo) (next : Node σ)
    (delivered : Delivered earlier node) (moved : act remote libm node (.send url io) = some next) :
    Delivered earlier next := by
  obtain ⟨payload, last, moved⟩ := Option.bind_eq_some_iff.mp moved
  obtain ⟨threads, stepped, rfl⟩ := Option.map_eq_some_iff.mp moved
  have lines := delivered_lines earlier whole node delivered
  have old := filed_lines earlier whole node delivered
  have tracked := tracked_step libm _ node.late _ threads delivered.tracked stepped
  rw [show lateSerials node.threads (.send _) = [] from rfl, List.append_nil] at tracked
  rcases outcome : sendWithRetryOrStore remote url payload.text io node.world with ⟨sent, world⟩
  rw [outcome] at stepped
  cases step_moves libm node.threads _ threads stepped with
  | send _ sending =>
    have inFlight : flying node.threads = [payload] := by simp [flying, sending, last]
    have landed : flying { node.threads with sender := .resetting sent } = [] :=
      flying_idle _ (show Sender.resetting sent ≠ .sending from nofun)
    have split := delivered.split
    rw [inFlight] at split lines
    -- The payload takes the next number, whether or not it is filed under it.
    have fresh : ∀ number < node.filed.length + 1,
        Line (textOf (node.filed ++ [payload]) number) := by
      intro number before
      rcases Nat.lt_succ_iff_lt_or_eq.mp before with earlierOne | rfl
      · rw [textOf_before _ _ _ earlierOne]
        exact old number earlierOne
      · rw [textOf_last]
        exact lines payload (by simp)
    obtain ⟨ledger, accounts, refines⟩ := delivered.files
    have numbered := refines_congr (textOf node.filed) node.filed.length
      (textOf (node.filed ++ [payload])) ledger node.world accounts refines
      (textOf_before node.filed payload)
    obtain ⟨after, accountsAfter, refinesAfter⟩ :=
      refines_send remote _ node.filed.length fresh url io ledger node.world accounts numbered
    rw [textOf_last, outcome] at accountsAfter refinesAfter
    simp only [Node.file] at tracked ⊢
    cases files : filing sent io with
    | true =>
      rw [files] at accountsAfter
      refine ⟨tracked, delivered.stored, delivered.pending, delivered.lines, ?_, after, ?_, ?_⟩
      · simp only [if_true, landed, List.append_nil]
        refine split.trans ?_
        rw [List.append_assoc, List.append_assoc]
        exact List.perm_append_comm.append_left _
      · simpa using accountsAfter
      · exact refinesAfter
    | false =>
      rw [files] at accountsAfter
      refine ⟨tracked, delivered.stored, delivered.pending, delivered.lines, ?_, after, ?_, ?_⟩
      · simp only [Bool.false_eq_true, if_false, landed, List.append_nil]
        rw [← List.append_assoc]
        exact split
      · exact accountsAfter
      · exact refines_congr _ node.filed.length _ after world accountsAfter refinesAfter
          fun number before => (textOf_before node.filed payload number before).symm

theorem delivered_drain (node : Node σ) (url : Bytes) (next : Node σ)
    (delivered : Delivered earlier node) (moved : act remote libm node (.drain url) = some next) :
    Delivered earlier next := by
  obtain ⟨threads, stepped, rfl⟩ := Option.map_eq_some_iff.mp moved
  have tracked := tracked_step libm _ node.late _ threads delivered.tracked stepped
  rw [show lateSerials node.threads .drain = [] from rfl, List.append_nil] at tracked
  cases step_moves libm node.threads _ threads stepped with
  | drain draining =>
    have before : flying node.threads = [] := flying_idle _ (by rw [draining]; decide)
    have after : flying { node.threads with sender := .testing } = [] :=
      flying_idle _ (show Sender.testing ≠ .sending by decide)
    obtain ⟨ledger, accounts, refines⟩ := delivered.files
    refine ⟨tracked, delivered.stored, delivered.pending, delivered.lines, ?_,
      refines_drain remote _ _ url ledger node.world
        (filed_lines earlier whole node delivered) accounts refines⟩
    rw [after, ← before]
    exact delivered.split

theorem delivered_act (node : Node σ) (event : Event) (next : Node σ)
    (delivered : Delivered earlier node) (plain : PlainNames event)
    (moved : act remote libm node event = some next) : Delivered earlier next := by
  cases event with
  | send url io => exact delivered_send remote libm earlier whole node url io next delivered moved
  | drain url => exact delivered_drain remote libm earlier whole node url next delivered moved
  | thread label =>
      cases label
      case send | drain => cases moved
      all_goals
        obtain ⟨threads, stepped, rfl⟩ := Option.map_eq_some_iff.mp moved
        exact delivered_thread libm earlier node _ threads delivered plain nofun nofun stepped

end

theorem flatMap_numbered (filed : List Payload) :
    (List.range filed.length).flatMap (serialsOf filed) = filed.flatMap Payload.serials := by
  induction filed using List.reverseRecOn with
  | nil => rfl
  | append_singleton filed payload ih =>
      have before : (List.range filed.length).flatMap (serialsOf (filed ++ [payload])) =
          (List.range filed.length).flatMap (serialsOf filed) :=
        List.flatMap_congr fun number member => by
          simp [serialsOf, List.getElem?_append_left (List.mem_range.mp member)]
      rw [List.length_append, List.length_singleton, List.range_succ, List.flatMap_append,
        List.flatMap_append, before, ih]
      simp [serialsOf]

/-- What the queue held at the start carries no reading of this run. -/
theorem filed_serials (earlier : List Bytes) (node : Node σ) (delivered : Delivered earlier node) :
    (node.filed.flatMap Payload.serials ++ node.unfiled.flatMap Payload.serials ++
        (flying node.threads).flatMap Payload.serials).Perm
      (node.threads.payloads.flatMap Payload.serials) := by
  have old : (earlier.map fun text => (⟨text, []⟩ : Payload)).flatMap Payload.serials = [] := by
    simp
  rw [← List.flatMap_append, ← List.flatMap_append]
  refine (delivered.split.symm.flatMap_right Payload.serials).trans (.of_eq ?_)
  rw [List.flatMap_append, old, List.nil_append]

/-- However the threads, the sends and the drains interleave, each accepted reading is in one
payload at the server, in the queue, trimmed, dropped, unfiled or in flight, or still in the store,
or was appended too late; and the files hold the payloads so numbered. -/
theorem readings_in_one_place (earlier : List Bytes) (whole : ∀ text ∈ earlier, Line text)
    (node : Node σ)
    (reached : ReachableWithin (act remote libm) (Begins earlier) (fun _ event => PlainNames event)
      node) :
    ∃ ledger, Accounts node.filed.length ledger ∧
      Refines (textOf node.filed) ledger node.world ∧
      ((ledger.acked ++ ledger.queued ++ ledger.evicted ++ ledger.dropped).flatMap
          (serialsOf node.filed) ++ node.unfiled.flatMap Payload.serials ++
        (flying node.threads).flatMap Payload.serials ++ waiting node.threads ++ node.late).Perm
        (List.range node.threads.next) := by
  have delivered : Delivered earlier node :=
    reachable_within_invariant (act remote libm) (Begins earlier) (Delivered earlier)
      (fun _ event => PlainNames event) (delivered_initial earlier)
      (fun before event next => delivered_act remote libm earlier whole before event next)
      node reached
  obtain ⟨ledger, accounts, refines⟩ := delivered.files
  refine ⟨ledger, accounts, refines, ?_⟩
  have numbered : ((ledger.acked ++ ledger.queued ++ ledger.evicted ++ ledger.dropped).flatMap
      (serialsOf node.filed)).Perm (node.filed.flatMap Payload.serials) := by
    rw [← flatMap_numbered]
    exact accounts.conserved.flatMap_right _
  have inPayloads := ((numbered.append_right _).append_right _).trans
    (filed_serials earlier node delivered)
  exact ((inPayloads.append_right _).append_right _).trans
    (tracked_readings _ _ delivered.tracked)

end

/-- The server refuses this many connections and then takes everything. -/
def recovering : Remote Nat :=
  ⟨fun _ => none, fun refusals _ => (if refusals = 0 then .status 200 else .failed, refusals - 1)⟩

/-- One payload is stored while a second reading comes too late for it; the third reading's payload
is taken and the stored one follows it. -/
def recovery : List Event :=
  let cycle (name : String) (during : List Event) : List Event :=
    [.thread (.receive (ascii name)), .thread (.append 0), .thread .test,
      .thread (.derive ⟨0, 0, 0⟩), .thread (.serialise true 0)] ++ during ++
    [.send (ascii "http://server/data") ⟨true, true, true, true⟩, .thread .reset]
  cycle "a:1" [.thread (.receive (ascii "b:2")), .thread (.append 0)] ++ [.thread .test] ++
    cycle "c:3" [] ++ [.drain (ascii "http://server/data"), .thread (.receive (ascii "d:4"))]

def fresh : Node Nat := ⟨initial, ⟨⟨none, none, none⟩, [], 3⟩, [], [], []⟩

theorem readings_in_one_place_recovery : ∃ node,
    exec (act recovering ⟨Float.log, Float.exp⟩) fresh recovery = some node ∧
      node.filed.length = 2 ∧ node.late = [1] ∧
      ∃ ledger, Accounts node.filed.length ledger ∧
        Refines (textOf node.filed) ledger node.world ∧
        ((ledger.acked ++ ledger.queued ++ ledger.evicted ++ ledger.dropped).flatMap
            (serialsOf node.filed) ++ node.unfiled.flatMap Payload.serials ++
          (flying node.threads).flatMap Payload.serials ++ waiting node.threads ++ node.late).Perm
          (List.range node.threads.next) := by
  have ends : (exec (act recovering ⟨Float.log, Float.exp⟩) fresh recovery).map
      (fun node => (node.filed.length, node.late)) = some (2, [1]) := by decide +kernel
  obtain ⟨node, ran, held⟩ := Option.map_eq_some_iff.mp ends
  obtain ⟨count, late⟩ := Prod.mk.inj held
  have begins : Begins [] fresh := ⟨rfl, rfl, rfl, rfl, rfl, rfl⟩
  exact ⟨node, ran, count, late, readings_in_one_place recovering _ [] nofun node
    ⟨fresh, recovery, begins, by decide +kernel, ran⟩⟩

end SensorNode.CollectorDelivery
