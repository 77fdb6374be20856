import SensorNode.StepSystem
import Mathlib.Data.List.Perm.Lattice

/-!
Ownership of resources that are named when they are acquired. A log of
acquisitions and releases is audited from left to right: a name may be acquired
once, and only what is held may be released. `Holds` states what an audited log
leaves held, up to order, and which names are still unused.
-/

namespace SensorNode.ResourceLedger

open StepSystem

universe u
variable {Resource : Type u}

inductive Event (Resource : Type u) where
  | acquire (resource : Resource)
  | release (resource : Resource)
  deriving DecidableEq

structure Account (Resource : Type u) where
  seen : List Resource
  held : List Resource
  deriving DecidableEq

/-- Names are numbered so that a new one can always be chosen. -/
structure Ledger (Resource : Type u) where
  fresh : Nat
  log : List (Event Resource)

def Ledger.empty : Ledger Resource := ⟨0, []⟩

def Ledger.acquire (ledger : Ledger Resource) (resource : Resource) : Ledger Resource :=
  ⟨ledger.fresh + 1, ledger.log ++ [.acquire resource]⟩

def Ledger.release (ledger : Ledger Resource) (resource : Resource) : Ledger Resource :=
  ⟨ledger.fresh, ledger.log ++ [.release resource]⟩

def Ledger.releaseAll (ledger : Ledger Resource) (resources : List Resource) : Ledger Resource :=
  resources.foldl Ledger.release ledger

variable [DecidableEq Resource]

def post (account : Account Resource) : Event Resource → Option (Account Resource)
  | .acquire resource =>
      if resource ∈ account.seen then none
      else some ⟨resource :: account.seen, resource :: account.held⟩
  | .release resource =>
      if resource ∈ account.held then some ⟨account.seen, account.held.erase resource⟩
      else none

/-- The account of a log; none when it releases what is not held. -/
def audit (log : List (Event Resource)) : Option (Account Resource) :=
  exec post ⟨[], []⟩ log

/-- The log audits to exactly these resources held, all of them numbered below
the next name. -/
structure Holds (number : Resource → Nat) (ledger : Ledger Resource) (held : List Resource) :
    Prop where
  audited : ∃ account, audit ledger.log = some account ∧ account.held.Perm held ∧
    ∀ resource ∈ account.seen, number resource < ledger.fresh

theorem audit_append (log more : List (Event Resource)) :
    audit (log ++ more) = (audit log).bind fun account => exec post account more :=
  exec_append post ⟨[], []⟩ log more

variable {number : Resource → Nat}

theorem holds_empty : Holds number (Ledger.empty : Ledger Resource) [] :=
  ⟨⟨[], []⟩, rfl, .refl _, nofun⟩

theorem Holds.perm {ledger : Ledger Resource} {held other : List Resource}
    (holds : Holds number ledger held) (same : held.Perm other) : Holds number ledger other := by
  obtain ⟨account, audited, balanced, named⟩ := holds.audited
  exact ⟨account, audited, balanced.trans same, named⟩

theorem Holds.acquire {ledger : Ledger Resource} {held : List Resource} {resource : Resource}
    (holds : Holds number ledger held) (next : number resource = ledger.fresh) :
    Holds number (ledger.acquire resource) (resource :: held) := by
  obtain ⟨account, audited, balanced, named⟩ := holds.audited
  have unseen : resource ∉ account.seen := fun seen =>
    Nat.lt_irrefl _ (next ▸ named resource seen)
  refine ⟨⟨resource :: account.seen, resource :: account.held⟩, ?_, balanced.cons resource, ?_⟩
  · simp [Ledger.acquire, audit_append, audited, exec_cons, post, unseen]
  · intro other member
    rcases List.mem_cons.mp member with same | earlier
    · rw [same, next]
      exact Nat.lt_succ_self _
    · exact Nat.lt_succ_of_lt (named other earlier)

theorem Holds.release {ledger : Ledger Resource} {held : List Resource} {resource : Resource}
    (holds : Holds number ledger (resource :: held)) :
    Holds number (ledger.release resource) held := by
  obtain ⟨account, audited, balanced, named⟩ := holds.audited
  have member : resource ∈ account.held := balanced.mem_iff.mpr List.mem_cons_self
  refine ⟨⟨account.seen, account.held.erase resource⟩, ?_, ?_, named⟩
  · simp [Ledger.release, audit_append, audited, exec_cons, post, member]
  · simpa using balanced.erase resource

theorem Holds.releaseAll {ledger : Ledger Resource} (resources : List Resource)
    {held : List Resource} (holds : Holds number ledger (resources ++ held)) :
    Holds number (ledger.releaseAll resources) held := by
  induction resources generalizing ledger with
  | nil => exact holds
  | cons resource rest ih => exact ih holds.release

/-- In an audited log each name is acquired at most once, and is held or has
been released as often as it was acquired. -/
theorem post_counts (log : List (Event Resource)) (before after : Account Resource)
    (ran : exec post before log = some after) (resource : Resource) :
    log.count (.release resource) + after.held.count resource =
        log.count (.acquire resource) + before.held.count resource ∧
      (resource ∈ before.seen → log.count (.acquire resource) = 0) ∧
      log.count (.acquire resource) ≤ 1 := by
  induction log generalizing before with
  | nil =>
      cases ran
      exact ⟨rfl, fun _ => rfl, Nat.zero_le 1⟩
  | cons event rest ih =>
      obtain ⟨next, moved, ran⟩ := (exec_cons_iff post before after event rest).mp ran
      obtain ⟨balance, again, once⟩ := ih next ran
      cases event with
      | acquire other =>
          simp only [post] at moved
          split at moved
          · cases moved
          · next unseen =>
            cases moved
            by_cases same : other = resource
            · subst same
              -- What has been acquired is not acquired again.
              have none := again List.mem_cons_self
              simp only [List.count_cons_self, List.count_cons] at *
              grind
            · simp only [List.count_cons, List.mem_cons] at *
              grind
      | release other =>
          simp only [post] at moved
          split at moved
          · next member =>
            cases moved
            by_cases same : other = resource
            · subst same
              have positive := List.count_pos_iff.mpr member
              simp only [List.count_cons, List.count_erase_self] at *
              grind
            · simp only [List.count_cons, List.count_erase_of_ne (Ne.symm same)] at *
              grind
          · cases moved

/-- Whatever was acquired has been released exactly once if nothing is held. -/
theorem Holds.released_once {ledger : Ledger Resource} (holds : Holds number ledger [])
    (resource : Resource) (acquired : .acquire resource ∈ ledger.log) :
    ledger.log.count (.release resource) = 1 := by
  obtain ⟨account, audited, balanced, _⟩ := holds.audited
  obtain ⟨balance, _, once⟩ := post_counts ledger.log ⟨[], []⟩ account audited resource
  have some := List.count_pos_iff.mpr acquired
  rw [List.perm_nil.mp balanced] at balance
  simp only [List.count_nil] at balance
  omega

theorem Holds.audits {ledger : Ledger Resource} {held : List Resource}
    (holds : Holds number ledger held) : (audit ledger.log).isSome := by
  obtain ⟨account, audited, _⟩ := holds.audited
  rw [audited]
  rfl

end SensorNode.ResourceLedger
