import Mathlib.Data.List.Range
import SensorNode.QueueDelivery

/-!
Where every payload of web_sender is, over whole runs of send cycles. A ledger
numbers the payloads in creation order and files each number under one of four
places; its moves keep every number in exactly one place and the queue in
order. The files and the log of a run refine such a ledger, cycle by cycle.
-/

namespace SensorNode.PayloadLedger

open LineStream OfflineQueue DrainRewrite QueueDelivery ReadingStore PayloadText

universe u
variable {σ : Type u}

/-! ## The ledger -/

structure Ledger where
  acked : List Nat
  queued : List Nat
  evicted : List Nat
  dropped : List Nat
  deriving DecidableEq

namespace Ledger

def ack (ledger : Ledger) (fresh : Nat) : Ledger :=
  { ledger with acked := ledger.acked ++ [fresh] }

def drop (ledger : Ledger) (fresh : Nat) : Ledger :=
  { ledger with dropped := ledger.dropped ++ [fresh] }

/-- The oldest queued numbers are evicted. -/
def evict (ledger : Ledger) (count : Nat) : Ledger :=
  { ledger with
    queued := ledger.queued.drop count
    evicted := ledger.evicted ++ ledger.queued.take count }

def store (ledger : Ledger) (fresh : Nat) : Ledger :=
  { ledger with queued := ledger.queued ++ [fresh] }

/-- The oldest queued numbers are acknowledged. -/
def deliver (ledger : Ledger) (count : Nat) : Ledger :=
  { ledger with
    acked := ledger.acked ++ ledger.queued.take count
    queued := ledger.queued.drop count }

end Ledger

/-- Every number below `total` is in exactly one place, and the queue is in order. -/
structure Accounts (total : Nat) (ledger : Ledger) : Prop where
  conserved : (ledger.acked ++ ledger.queued ++ ledger.evicted ++ ledger.dropped).Perm
    (List.range total)
  ordered : ledger.queued.Pairwise (· < ·)

section
variable (total : Nat) (ledger : Ledger)

theorem count_split (queued : List Nat) (count number : Nat) :
    (queued.take count).count number + (queued.drop count).count number = queued.count number := by
  rw [← List.count_append, List.take_append_drop]

theorem accounts_bound (accounts : Accounts total ledger) :
    ∀ number ∈ ledger.queued, number < total := by
  intro number member
  apply List.mem_range.mp
  apply accounts.conserved.subset
  simp [member]

theorem accounts_evict (count : Nat) (accounts : Accounts total ledger) :
    Accounts total (ledger.evict count) := by
  constructor
  · refine List.Perm.trans (List.perm_iff_count.mpr fun number => ?_) accounts.conserved
    have split := count_split ledger.queued count number
    simp only [Ledger.evict, List.count_append]
    omega
  · exact accounts.ordered.sublist (List.drop_sublist _ _)

theorem accounts_deliver (count : Nat) (accounts : Accounts total ledger) :
    Accounts total (ledger.deliver count) := by
  constructor
  · refine List.Perm.trans (List.perm_iff_count.mpr fun number => ?_) accounts.conserved
    have split := count_split ledger.queued count number
    simp only [Ledger.deliver, List.count_append]
    omega
  · exact accounts.ordered.sublist (List.drop_sublist _ _)

theorem conserved_fresh (acked queued evicted dropped : List Nat) (after : List Nat)
    (accounts : (acked ++ queued ++ evicted ++ dropped).Perm (List.range total))
    (filed : ∀ number, after.count number =
      (acked ++ queued ++ evicted ++ dropped).count number + [total].count number) :
    after.Perm (List.range (total + 1)) := by
  apply List.perm_iff_count.mpr
  intro number
  rw [filed, accounts.count_eq, List.range_succ, List.count_append]

theorem accounts_ack (accounts : Accounts total ledger) :
    Accounts (total + 1) (ledger.ack total) := by
  refine ⟨conserved_fresh total _ _ _ _ _ accounts.conserved fun number => ?_, accounts.ordered⟩
  simp only [Ledger.ack, List.count_append]
  omega

theorem accounts_drop (accounts : Accounts total ledger) :
    Accounts (total + 1) (ledger.drop total) := by
  refine ⟨conserved_fresh total _ _ _ _ _ accounts.conserved fun number => ?_, accounts.ordered⟩
  simp only [Ledger.drop, List.count_append]
  omega

theorem accounts_store (accounts : Accounts total ledger) :
    Accounts (total + 1) (ledger.store total) := by
  refine ⟨conserved_fresh total _ _ _ _ _ accounts.conserved fun number => ?_, ?_⟩
  · simp only [Ledger.store, List.count_append]
    omega
  · apply List.pairwise_append.mpr
    refine ⟨accounts.ordered, List.pairwise_singleton _ _, ?_⟩
    intro older member number newest
    exact List.mem_singleton.mp newest ▸ accounts_bound total ledger accounts older member

end

/-! ## Refinement -/

/-- The log and the queue file hold the texts the ledger says. -/
structure Refines (text : Nat → Bytes) (ledger : Ledger) (world : World σ) : Prop where
  acked : acknowledged world.log = ledger.acked.map text
  queued : world.disk.queue.getD [] = framed (ledger.queued.map text)
  evicted : evictedLines world.log = ledger.evicted.map fun number => text number ++ [newline]
  dropped : droppedTexts world.log = ledger.dropped.map text

section
variable (text : Nat → Bytes) (ledger : Ledger) (world after : World σ)

theorem refines_evict (count : Nat) (refines : Refines text ledger world)
    (queue : after.disk.queue.getD [] = framed ((ledger.queued.map text).drop count))
    (grows : LogGrows world.log after.log []
      (((ledger.queued.map text).take count).map fun text => text ++ [newline]) []) :
    Refines text (ledger.evict count) after := by
  constructor
  · rw [grows.acked, refines.acked, List.append_nil]
    rfl
  · rw [queue, ← List.map_drop]
    rfl
  · rw [grows.evicted, refines.evicted, ← List.map_take, List.map_map, Ledger.evict,
      List.map_append]
    rfl
  · rw [grows.dropped, refines.dropped, List.append_nil]
    rfl

theorem refines_deliver (count : Nat) (refines : Refines text ledger world)
    (queue : after.disk.queue.getD [] = framed ((ledger.queued.map text).drop count))
    (grows : LogGrows world.log after.log ((ledger.queued.map text).take count) [] []) :
    Refines text (ledger.deliver count) after := by
  constructor
  · rw [grows.acked, refines.acked, ← List.map_take]
    simp [Ledger.deliver]
  · rw [queue, ← List.map_drop]
    rfl
  · rw [grows.evicted, refines.evicted, List.append_nil]
    rfl
  · rw [grows.dropped, refines.dropped, List.append_nil]
    rfl

end

/-! ## One payload -/

section
variable (remote : Remote σ) (url payload : Bytes)

theorem sendAttempts_log (attempts : Nat) (world : World σ) :
    (sendAttempts remote url payload attempts world).2.disk = world.disk ∧
      LogGrows world.log (sendAttempts remote url payload attempts world).2.log
        (if (sendAttempts remote url payload attempts world).1 then [payload] else []) [] [] := by
  induction attempts generalizing world with
  | zero => exact ⟨rfl, logGrows_refl world.log⟩
  | succ attempts ih =>
      have sent := logGrows_append world.log
        [.send payload (sendToServer remote world.remote payload url).1]
      cases answer : (sendToServer remote world.remote payload url).1 with
      | true =>
          rw [answer] at sent
          simp only [sendAttempts, answer, ↓reduceIte]
          exact ⟨rfl, sent⟩
      | false =>
          rw [answer] at sent
          obtain ⟨disk, grows⟩ := ih
            { world.run [.send payload false] with
              remote := (sendToServer remote world.remote payload url).2 }
          simp only [sendAttempts, answer, Bool.false_eq_true, ↓reduceIte]
          exact ⟨disk, sent.trans grows⟩

end

section
variable (text : Nat → Bytes) (total : Nat) (lines : ∀ number < total + 1, Line (text number))
include lines

theorem queued_lines (ledger : Ledger) (accounts : Accounts total ledger) :
    ∀ line ∈ ledger.queued.map text, Line line := by
  intro line member
  obtain ⟨number, inQueue, same⟩ := List.mem_map.mp member
  have bound := accounts_bound total ledger accounts number inQueue
  exact same ▸ lines number (Nat.lt_succ_of_lt bound)

theorem refines_trim (ledger : Ledger) (world : World σ) (accounts : Accounts total ledger)
    (refines : Refines text ledger world) :
    Refines text (ledger.evict (ledger.queued.length - maxOfflineLines))
      (trimOfflineQueue world) := by
  obtain ⟨file, grows, _, _⟩ := trimOfflineQueue_lines (ledger.queued.map text) world
    (queued_lines text total lines ledger accounts) refines.queued
  rw [List.length_map] at file grows
  exact refines_evict text ledger world _ _ refines file grows

theorem refines_storeWithSpace (before after : Bool) (ledger : Ledger) (world : World σ)
    (accounts : Accounts total ledger) (refines : Refines text ledger world) :
    ∃ stored, Accounts (total + 1) stored ∧
      Refines text stored (storeWithSpace ⟨before, after, true, true⟩ world (text total)) := by
  have trimmed := accounts_evict total ledger (ledger.queued.length - maxOfflineLines) accounts
  obtain ⟨file, grows, _, _⟩ := storeWithSpace_lines world (ledger.queued.map text)
    (queued_lines text total lines ledger accounts) refines.queued (text total) before after
  rw [List.length_map] at file grows
  refine ⟨_, accounts_store total _ trimmed, ?_⟩
  constructor
  · rw [grows.acked, refines.acked, List.append_nil]
    rfl
  · rw [file, ← List.map_drop, ← List.map_singleton (f := text), ← List.map_append]
    rfl
  · rw [grows.evicted, refines.evicted, ← List.map_take, List.map_map, Ledger.store,
      Ledger.evict, List.map_append]
    rfl
  · rw [grows.dropped, refines.dropped, List.append_nil]
    rfl

theorem refines_storeLocally (before after : Bool) (ledger : Ledger) (world : World σ)
    (accounts : Accounts total ledger) (refines : Refines text ledger world) :
    ∃ stored, Accounts (total + 1) stored ∧
      Refines text stored (storeLocally ⟨before, after, true, true⟩ world (text total)) := by
  unfold storeLocally
  cases before with
  | true =>
      exact refines_storeWithSpace text total lines true after ledger world accounts refines
  | false =>
      have trimmed := refines_trim text total lines ledger world accounts refines
      have kept := accounts_evict total ledger (ledger.queued.length - maxOfflineLines) accounts
      cases after with
      | true =>
          exact refines_storeWithSpace text total lines false true _ _ kept trimmed
      | false =>
          have dropped := logGrows_append (trimOfflineQueue world).log [.drop (text total)]
          refine ⟨_, accounts_drop total _ kept, ?_⟩
          constructor
          · exact dropped.acked.trans (by rw [trimmed.acked]; exact List.append_nil _)
          · exact trimmed.queued
          · exact dropped.evicted.trans (by rw [trimmed.evicted]; exact List.append_nil _)
          · refine dropped.dropped.trans ?_
            rw [trimmed.dropped]
            simp [droppedTexts, Ledger.drop]

end

/-! ## Runs of send cycles -/

/-- One pass of web_sender's loop: the store it serialises, its clock, the
outcome of `malloc` and of the two `disk_space_ok` checks. -/
structure Cycle where
  memory : Bool
  store : DataStore
  now : Int64
  url : Bytes
  spaceBefore : Bool
  spaceAfter : Bool

/-- The payload handed to `send_with_retry_or_store`, if there is data to send. -/
def handed (cycle : Cycle) : Option Bytes :=
  if 0 < cycle.store.count then createJsonPayload cycle.memory cycle.store cycle.now else none

section
variable (remote : Remote σ)

/-- The send part of one pass, with no I/O error on the queue's own files. -/
def webSender (world : World σ) (cycle : Cycle) : World σ :=
  match handed cycle with
  | none => world
  | some json =>
      let outcome := sendWithRetryOrStore remote cycle.url json
        ⟨cycle.spaceBefore, cycle.spaceAfter, true, true⟩ world
      if outcome.1 then drainOfflineQueue remote cycle.url outcome.2 else outcome.2

def runCycles (world : World σ) (cycles : List Cycle) : World σ :=
  cycles.foldl (webSender remote) world

section
variable (world tried : World σ) (cycle : Cycle) (payload : Bytes)
  (fresh : handed cycle = some payload)
include fresh

theorem webSender_sent
    (sent : sendAttempts remote cycle.url payload retryCount world = (true, tried)) :
    webSender remote world cycle = drainOfflineQueue remote cycle.url tried := by
  simp [webSender, fresh, sendWithRetryOrStore, sent]

theorem webSender_stored
    (failed : sendAttempts remote cycle.url payload retryCount world = (false, tried)) :
    webSender remote world cycle =
      storeLocally ⟨cycle.spaceBefore, cycle.spaceAfter, true, true⟩ tried payload := by
  simp [webSender, fresh, sendWithRetryOrStore, failed]

end

theorem refines_webSender (text : Nat → Bytes) (total : Nat)
    (lines : ∀ number < total + 1, Line (text number)) (ledger : Ledger) (world : World σ)
    (cycle : Cycle) (fresh : handed cycle = some (text total)) (accounts : Accounts total ledger)
    (refines : Refines text ledger world) :
    ∃ after, Accounts (total + 1) after ∧ Refines text after (webSender remote world cycle) := by
  obtain ⟨disk, grows⟩ := sendAttempts_log remote cycle.url (text total) retryCount world
  rcases outcome : sendAttempts remote cycle.url (text total) retryCount world with ⟨sent, tried⟩
  rw [outcome] at disk grows
  cases sent with
  | true =>
      rw [webSender_sent remote world tried cycle _ fresh outcome]
      have acked : Refines text (ledger.ack total) tried := by
        constructor
        · rw [grows.acked, refines.acked, Ledger.ack, List.map_append]
          rfl
        · rw [disk]
          exact refines.queued
        · rw [grows.evicted, refines.evicted, List.append_nil]
          rfl
        · rw [grows.dropped, refines.dropped, List.append_nil]
          rfl
      -- The fresh payload was sent directly, so the drain sees the queue as it was.
      obtain ⟨file, drained, _⟩ := drainOfflineQueue_lines remote cycle.url
        (ledger.queued.map text) tried (queued_lines text total lines ledger accounts) acked.queued
      exact ⟨_, accounts_deliver (total + 1) _ _ (accounts_ack total ledger accounts),
        refines_deliver text _ _ _ _ acked file drained⟩
  | false =>
      rw [webSender_stored remote world tried cycle _ fresh outcome]
      have unsent : Refines text ledger tried := by
        constructor
        · exact grows.acked.trans (by rw [refines.acked]; exact List.append_nil _)
        · rw [disk]
          exact refines.queued
        · exact grows.evicted.trans (by rw [refines.evicted]; exact List.append_nil _)
        · exact grows.dropped.trans (by rw [refines.dropped]; exact List.append_nil _)
      exact refines_storeLocally text total lines _ _ ledger tried accounts unsent

theorem refines_runCycles (text : Nat → Bytes) (cycles : List Cycle) (total : Nat)
    (lines : ∀ number < total + (cycles.filterMap handed).length, Line (text number))
    (numbered : ∀ offset payload, (cycles.filterMap handed)[offset]? = some payload →
      text (total + offset) = payload)
    (ledger : Ledger) (world : World σ) (accounts : Accounts total ledger)
    (refines : Refines text ledger world) :
    ∃ after, Accounts (total + (cycles.filterMap handed).length) after ∧
      Refines text after (runCycles remote world cycles) := by
  induction cycles generalizing total ledger world with
  | nil => exact ⟨ledger, accounts, refines⟩
  | cons cycle cycles ih =>
      cases payload : handed cycle with
      | none =>
          have same : webSender remote world cycle = world := by
            rw [webSender, payload]
          rw [List.filterMap_cons_none payload] at lines numbered ⊢
          rw [runCycles, List.foldl_cons, same]
          exact ih total lines numbered ledger world accounts refines
      | some json =>
          rw [List.filterMap_cons_some payload] at lines numbered ⊢
          rw [List.length_cons] at lines ⊢
          have first : text total = json := numbered 0 json rfl
          obtain ⟨next, filed, stepped⟩ := refines_webSender remote text total
            (fun number small => lines number (by omega)) ledger world cycle
            (first ▸ payload) accounts refines
          have shift : total + 1 + (cycles.filterMap handed).length =
              total + ((cycles.filterMap handed).length + 1) := by omega
          rw [← shift] at lines ⊢
          apply ih (total + 1) lines ?_ next _ filed stepped
          intro offset later found
          have place : total + 1 + offset = total + (offset + 1) := by omega
          rw [place]
          exact numbered (offset + 1) later found

/-- The queue a run starts from, numbered before any payload of the run. -/
def Ledger.initial (earlier : Nat) : Ledger := ⟨[], List.range earlier, [], []⟩

/-- Over any run of send cycles every payload stays in exactly one place, and
the queue file holds its payloads in creation order. -/
theorem payloads_conserved (state : σ) (earlier : List Bytes) (disk : Disk) (cycles : List Cycle)
    (old : ∀ text ∈ earlier, Line text) (queue : disk.queue.getD [] = framed earlier)
    (single : ∀ text ∈ cycles.filterMap handed, newline ∉ text ∧ text.length < 8191) :
    ∃ ledger,
      Accounts (earlier ++ cycles.filterMap handed).length ledger ∧
        Refines (fun number => (earlier ++ cycles.filterMap handed).getD number []) ledger
          (runCycles remote ⟨disk, [], state⟩ cycles) := by
  have lines : ∀ text ∈ earlier ++ cycles.filterMap handed, Line text := by
    intro text member
    rcases List.mem_append.mp member with inEarlier | inCycles
    · exact old text inEarlier
    · obtain ⟨plain, short⟩ := single text inCycles
      obtain ⟨cycle, _, payload⟩ := List.mem_filterMap.mp inCycles
      have returned : createJsonPayload cycle.memory cycle.store cycle.now = some text := by
        unfold handed at payload
        split at payload
        · exact payload
        · cases payload
      have same := createJsonPayload_some _ _ _ _ returned
      refine ⟨plain, ?_, ?_, Nat.le_of_lt_succ short⟩
      · exact same ▸ payloadText_noNul cycle.store cycle.now
      · exact same ▸ payloadText_nonempty cycle.store cycle.now
  -- A payload of a cycle is numbered behind those that were queued before.
  rw [List.length_append]
  apply refines_runCycles remote _ cycles earlier.length
  · intro number small
    rw [← List.length_append] at small
    rw [List.getD_eq_getElem?_getD, List.getElem?_eq_getElem small, Option.getD_some]
    exact lines _ (List.getElem_mem small)
  · intro offset payload found
    rw [List.getD_eq_getElem?_getD, List.getElem?_append_right (Nat.le_add_right _ _),
      Nat.add_sub_cancel_left, found, Option.getD_some]
  · exact (⟨by simp [Ledger.initial], List.pairwise_lt_range⟩ :
      Accounts earlier.length (Ledger.initial earlier.length))
  · refine ⟨rfl, ?_, rfl, rfl⟩
    rw [queue]
    congr 1
    apply List.ext_getElem (by simp [Ledger.initial])
    intro number inEarlier inRange
    simp [Ledger.initial, List.getElem?_append_left inEarlier, List.getElem?_eq_getElem inEarlier]

end

/-- The first payload is refused and stored; the second is taken and drains it. -/
theorem payloads_conserved_recovery :
    ∃ ledger, Accounts 2 ledger ∧
      Refines (fun number => [payloadText (collect .reset [(ascii "temp:21.5", 7)]) 9,
          payloadText (collect .reset [(ascii "temp:22.5", 17)]) 19].getD number []) ledger
        (runCycles ⟨fun _ => none, fun (refusals : Nat) _ =>
            (if refusals = 0 then .status 200 else .failed, refusals - 1)⟩
          ⟨⟨none, none, none⟩, [], 3⟩
          [⟨true, collect .reset [(ascii "temp:21.5", 7)], 9, ascii "http://server/data", true,
              true⟩,
            ⟨true, collect .reset [(ascii "temp:22.5", 17)], 19, ascii "http://server/data", true,
              true⟩]) :=
  payloads_conserved ⟨fun _ => none, fun (refusals : Nat) _ =>
      (if refusals = 0 then .status 200 else .failed, refusals - 1)⟩ 3 [] ⟨none, none, none⟩
    [⟨true, collect .reset [(ascii "temp:21.5", 7)], 9, ascii "http://server/data", true, true⟩,
      ⟨true, collect .reset [(ascii "temp:22.5", 17)], 19, ascii "http://server/data", true, true⟩]
    (by simp) rfl (by decide +kernel)

end SensorNode.PayloadLedger
