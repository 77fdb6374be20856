import Mathlib.Data.List.Range
import SensorNode.FrameStore

/-!
Who frees the names that `list_offline_frames` hands to a drain. The loop frees each
name it has done with and, after a failed post, all that follow; when it stops at the
limit of the batch nobody frees the rest. Names are told apart by their index.
-/

namespace SensorNode.FrameRelease

open LineStream FrameStore

/-! ## The loop -/

/-- What `fopen`, `malloc` and `post_jpeg` come to for one name. -/
inductive Attempt where
  | noFile
  | noBuffer
  | accepted
  | refused
  deriving DecidableEq

inductive Event where
  | posted (i : Nat) (ok : Bool)
  | unlinked (i : Nat)
  | freed (i : Nat)
  deriving DecidableEq

/-- The loop of `offline_frames_drain_batch` from name `i` on, `sent` posts accepted. -/
def drainLoop (maxBatch : Int) : (i : Nat) → (sent : Int) → List Attempt → List Event
  | _, _, [] => []
  | i, sent, attempt :: rest =>
      if sent < maxBatch then
        match attempt with
        | .noFile | .noBuffer => .freed i :: drainLoop maxBatch (i + 1) sent rest
        | .accepted => .posted i true :: .unlinked i :: .freed i ::
            drainLoop maxBatch (i + 1) (sent + 1) rest
        -- the inner loop over the names that follow, then the break
        | .refused => .posted i false :: .freed i ::
            (List.range' (i + 1) rest.length).map .freed
      else []

/-- One attempt for each name listed; nothing at all for none. -/
def drainBatch (maxBatch : Int) (attempts : List Attempt) : List Event :=
  drainLoop maxBatch 0 0 attempts

def Event.frees : Event → Option Nat
  | .freed i => some i
  | .posted _ _ | .unlinked _ => none

def freed (events : List Event) : List Nat := events.filterMap Event.frees

def ReleasesEach (maxBatch : Int) (attempts : List Attempt) : Prop :=
  ∀ i < attempts.length, (freed (drainBatch maxBatch attempts)).count i = 1

instance (maxBatch : Int) (attempts : List Attempt) :
    Decidable (ReleasesEach maxBatch attempts) :=
  inferInstanceAs (Decidable (∀ i < attempts.length, _))

/-! ## When every name is freed -/

/-- Posts accepted before the first that is refused, the last name left out. -/
def acceptedFirst (attempts : List Attempt) : Nat :=
  (attempts.dropLast.takeWhile (· ≠ .refused)).count .accepted

/-- The limit is not reached with names left. -/
def Settles (maxBatch sent : Int) (attempts : List Attempt) : Prop :=
  attempts = [] ∨ sent + acceptedFirst attempts < maxBatch

instance (maxBatch sent : Int) (attempts : List Attempt) :
    Decidable (Settles maxBatch sent attempts) :=
  inferInstanceAs (Decidable (_ ∨ _))

section
variable (maxBatch : Int) (i : Nat) (sent : Int) (rest : List Attempt)

theorem drainLoop_limit (attempts : List Attempt) (full : ¬ sent < maxBatch) :
    drainLoop maxBatch i sent attempts = [] := by
  cases attempts with
  | nil => rfl
  | cons attempt rest => cases attempt <;> exact if_neg full

variable (room : sent < maxBatch)
include room

theorem drainLoop_skip (attempt : Attempt) (skipped : attempt = .noFile ∨ attempt = .noBuffer) :
    drainLoop maxBatch i sent (attempt :: rest) =
      .freed i :: drainLoop maxBatch (i + 1) sent rest := by
  rcases skipped with rfl | rfl <;> exact if_pos room

theorem drainLoop_accepted :
    drainLoop maxBatch i sent (.accepted :: rest) =
      .posted i true :: .unlinked i :: .freed i :: drainLoop maxBatch (i + 1) (sent + 1) rest :=
  if_pos room

theorem drainLoop_refused :
    drainLoop maxBatch i sent (.refused :: rest) =
      .posted i false :: .freed i :: (List.range' (i + 1) rest.length).map .freed :=
  if_pos room

end

theorem freed_all (indices : List Nat) : freed (indices.map .freed) = indices := by
  rw [freed, List.filterMap_map]
  exact List.filterMap_some

section
variable (maxBatch sent : Int) (rest : List Attempt) (room : sent < maxBatch)
include room

theorem settles_skip (attempt : Attempt) (skipped : attempt = .noFile ∨ attempt = .noBuffer) :
    Settles maxBatch sent (attempt :: rest) ↔ Settles maxBatch sent rest := by
  cases rest with
  | nil => exact iff_of_true (.inr (by simpa [acceptedFirst] using room)) (.inl rfl)
  | cons next others =>
      have same : acceptedFirst (attempt :: next :: others) = acceptedFirst (next :: others) := by
        rcases skipped with rfl | rfl <;> simp [acceptedFirst]
      simp only [Settles, same, List.cons_ne_nil, false_or]

theorem settles_accepted :
    Settles maxBatch sent (.accepted :: rest) ↔ Settles maxBatch (sent + 1) rest := by
  cases rest with
  | nil => exact iff_of_true (.inr (by simpa [acceptedFirst] using room)) (.inl rfl)
  | cons next others =>
      have more : acceptedFirst (.accepted :: next :: others) =
          acceptedFirst (next :: others) + 1 := by
        simp [acceptedFirst]
      simp only [Settles, more, List.cons_ne_nil, false_or, Nat.cast_add, Nat.cast_one]
      omega

theorem settles_refused : Settles maxBatch sent (.refused :: rest) := by
  have none : acceptedFirst (.refused :: rest) = 0 := by
    cases rest <;> simp [acceptedFirst]
  exact .inr (by simpa [none] using room)

end

/-- The names freed are the first of those left, and all of them exactly when the loop
settles. -/
theorem drainLoop_freed (maxBatch : Int) (attempts : List Attempt) (i : Nat) (sent : Int) :
    ∃ count, freed (drainLoop maxBatch i sent attempts) = List.range' i count ∧
      count ≤ attempts.length ∧ (count = attempts.length ↔ Settles maxBatch sent attempts) := by
  induction attempts generalizing i sent with
  | nil => exact ⟨0, rfl, Nat.le_refl _, iff_of_true rfl (.inl rfl)⟩
  | cons attempt rest ih =>
      by_cases room : sent < maxBatch
      · have further : ∀ sent', (Settles maxBatch sent (attempt :: rest) ↔
            Settles maxBatch sent' rest) → ∃ count,
              i :: freed (drainLoop maxBatch (i + 1) sent' rest) = List.range' i count ∧
              count ≤ rest.length + 1 ∧
              (count = rest.length + 1 ↔ Settles maxBatch sent (attempt :: rest)) := by
          intro sent' settles
          obtain ⟨count, names, few, all⟩ := ih (i + 1) sent'
          refine ⟨count + 1, by rw [names, List.range'_succ], by omega, ?_⟩
          rw [settles, ← all]
          omega
        cases attempt with
        | noFile =>
            rw [drainLoop_skip maxBatch i sent rest room _ (.inl rfl)]
            exact further sent (settles_skip maxBatch sent rest room _ (.inl rfl))
        | noBuffer =>
            rw [drainLoop_skip maxBatch i sent rest room _ (.inr rfl)]
            exact further sent (settles_skip maxBatch sent rest room _ (.inr rfl))
        | accepted =>
            rw [drainLoop_accepted maxBatch i sent rest room]
            exact further (sent + 1) (settles_accepted maxBatch sent rest room)
        | refused =>
            -- A refusal frees what is left of the list before the loop ends.
            rw [drainLoop_refused maxBatch i sent rest room]
            refine ⟨rest.length + 1, ?_, Nat.le_refl _,
              iff_of_true rfl (settles_refused maxBatch sent rest room)⟩
            rw [List.range'_succ]
            exact congrArg (i :: ·) (freed_all _)
      -- At the limit the loop ends, and the names left are not freed.
      · rw [drainLoop_limit maxBatch i sent _ room]
        refine ⟨0, rfl, Nat.zero_le _, iff_of_false (Nat.succ_ne_zero _).symm ?_⟩
        rintro (none | less)
        · exact List.cons_ne_nil _ _ none
        · omega

theorem releasesEach_iff (maxBatch : Int) (attempts : List Attempt) :
    ReleasesEach maxBatch attempts ↔ Settles maxBatch 0 attempts := by
  obtain ⟨count, names, few, all⟩ := drainLoop_freed maxBatch attempts 0 0
  rw [← all, ReleasesEach, drainBatch, names]
  constructor
  · intro each
    by_contra short
    -- the first name that is left over
    have absent : (List.range' 0 count).count count = 0 :=
      List.count_eq_zero.mpr (by simp [List.mem_range'_1])
    have once := each count (by omega)
    omega
  · rintro rfl i inside
    exact List.count_eq_one_of_mem List.nodup_range' (by simpa [List.mem_range'_1] using inside)

/-- Six frames, every post accepted, five to a batch. -/
theorem limit_leaks_name : ¬ ∀ maxBatch attempts, ReleasesEach maxBatch attempts := by
  intro always
  exact absurd (always 5 (List.replicate 6 .accepted)) (by decide +kernel)

/-! ## The posts -/

/-- What the attempt on a listed name comes to in a drain of the store. -/
def attemptOn (io : DrainIo) (dir : Directory) (name : Bytes) : Attempt :=
  match openFrame dir name with
  | none => .noFile
  | some _ =>
      if !io.buffers name then .noBuffer else if io.answers name then .accepted else .refused

def Event.answer : Event → Option Bool
  | .posted _ ok => some ok
  | .unlinked _ | .freed _ => none

theorem answers_freed (indices : List Nat) :
    (indices.map Event.freed).filterMap Event.answer = [] := by
  rw [List.filterMap_map, List.filterMap_eq_nil_iff]
  exact fun _ _ => rfl

/-- The posts of the loop are those of the drain of the store. -/
theorem drainLoop_posts (io : DrainIo) (dir : Directory) (maxBatch : Int) (listed : List Bytes)
    (i : Nat) (sent : Int) :
    (drainLoop maxBatch i sent (listed.map (attemptOn io dir))).filterMap Event.answer =
      (batchLoop io dir (maxBatch - sent).toNat listed).map Post.ok := by
  by_cases room : sent < maxBatch
  · obtain ⟨left, size⟩ : ∃ left, (maxBatch - sent).toNat = left + 1 :=
      ⟨(maxBatch - sent).toNat - 1, by omega⟩
    have fewer : (maxBatch - (sent + 1)).toNat = left := by omega
    cases listed with
    | nil => rw [size]; rfl
    | cons name rest =>
        have same := drainLoop_posts io dir maxBatch rest (i + 1) sent
        have next := drainLoop_posts io dir maxBatch rest (i + 1) (sent + 1)
        rw [size] at same ⊢
        rw [fewer] at next
        rw [List.map_cons, batchLoop]
        cases opened : openFrame dir name with
        | none =>
            have attempt : attemptOn io dir name = .noFile := by simp [attemptOn, opened]
            rw [attempt, drainLoop_skip maxBatch i sent _ room _ (.inl rfl)]
            exact same
        | some file =>
            by_cases buffer : io.buffers name = true
            · by_cases accepted : io.answers name = true
              · have attempt : attemptOn io dir name = .accepted := by
                  simp [attemptOn, opened, buffer, accepted]
                rw [attempt, drainLoop_accepted maxBatch i sent _ room]
                simp only [buffer, accepted, Bool.not_true, Bool.false_eq_true, if_false, if_true]
                exact congrArg (true :: ·) next
              · have attempt : attemptOn io dir name = .refused := by
                  simp [attemptOn, opened, buffer, accepted]
                rw [attempt, drainLoop_refused maxBatch i sent _ room]
                simp only [buffer, accepted, Bool.not_true, Bool.false_eq_true, if_false]
                exact congrArg (false :: ·) (answers_freed _)
            · have attempt : attemptOn io dir name = .noBuffer := by
                simp [attemptOn, opened, buffer]
              rw [attempt, drainLoop_skip maxBatch i sent _ room _ (.inr rfl)]
              simp only [buffer, Bool.not_false, if_true]
              exact same
  · have none : (maxBatch - sent).toNat = 0 := by omega
    rw [drainLoop_limit maxBatch i sent _ room, none, batchLoop]
    rfl

end SensorNode.FrameRelease
