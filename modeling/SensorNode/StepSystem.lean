import Mathlib.Data.List.Basic

/-!
Deterministic labelled step systems. A label names which party moves and what
it observes, so one list of labels is one interleaving and `exec` replays it.
`Within` restricts a run by a condition on the state before each step; the run
rules below carry a step lemma to every state such a run reaches.
-/

namespace SensorNode.StepSystem

universe u v w
variable {State : Type u} {Label : Type v}

def exec (step : State → Label → Option State) : State → List Label → Option State
  | state, [] => some state
  | state, label :: rest => (step state label).bind fun next => exec step next rest

/-- Every step of the run is taken from a state that meets the condition. -/
def Within (step : State → Label → Option State) (allowed : State → Label → Prop) :
    State → List Label → Prop
  | _, [] => True
  | state, label :: rest => allowed state label ∧
      ∀ next, step state label = some next → Within step allowed next rest

/-- Replaying a run checks its condition. -/
instance decidableWithin (step : State → Label → Option State) (allowed : State → Label → Prop)
    [∀ state label, Decidable (allowed state label)] :
    ∀ state labels, Decidable (Within step allowed state labels)
  | _, [] => isTrue trivial
  | state, label :: rest =>
      match moved : step state label with
      | none => decidable_of_iff (allowed state label)
          ⟨fun first => ⟨first, fun _ after => nomatch moved.symm.trans after⟩, And.left⟩
      | some next =>
          have : Decidable (Within step allowed next rest) :=
            decidableWithin step allowed next rest
          decidable_of_iff (allowed state label ∧ Within step allowed next rest)
            ⟨fun both => ⟨both.1, fun _ after =>
              Option.some.inj (moved.symm.trans after) ▸ both.2⟩,
              fun within => ⟨within.1, within.2 next moved⟩⟩

def Reachable (step : State → Label → Option State) (start : State → Prop)
    (state : State) : Prop :=
  ∃ first labels, start first ∧ exec step first labels = some state

def ReachableWithin (step : State → Label → Option State) (start : State → Prop)
    (allowed : State → Label → Prop) (state : State) : Prop :=
  ∃ first labels, start first ∧ Within step allowed first labels ∧
    exec step first labels = some state

/-- Whatever these labels do, the state stays blocked. -/
def Stuck (step : State → Label → Option State) (own : Label → Prop) (blocked : State → Prop)
    (state : State) : Prop :=
  ∀ labels after, (∀ label ∈ labels, own label) → exec step state labels = some after →
    blocked after

variable (step : State → Label → Option State)

@[simp] theorem exec_nil (state : State) : exec step state [] = some state := rfl

theorem exec_cons (state : State) (label : Label) (rest : List Label) :
    exec step state (label :: rest) =
      (step state label).bind fun next => exec step next rest := rfl

theorem exec_cons_iff (state after : State) (label : Label) (rest : List Label) :
    exec step state (label :: rest) = some after ↔
      ∃ next, step state label = some next ∧ exec step next rest = some after := by
  rw [exec_cons, Option.bind_eq_some_iff]

theorem exec_append (state : State) (left right : List Label) :
    exec step state (left ++ right) =
      (exec step state left).bind fun next => exec step next right := by
  induction left generalizing state with
  | nil => rfl
  | cons label rest ih =>
      rw [List.cons_append, exec_cons, exec_cons]
      cases moved : step state label with
      | none => rfl
      | some next => simpa using ih next

/-- The step lemma: what every allowed step preserves, every allowed run does. -/
theorem exec_invariant (allowed : State → Label → Prop) (inv : State → Prop)
    (preserved : ∀ state label next, inv state → allowed state label →
      step state label = some next → inv next)
    (state after : State) (labels : List Label) (holds : inv state)
    (within : Within step allowed state labels)
    (ran : exec step state labels = some after) : inv after := by
  induction labels generalizing state with
  | nil =>
      cases ran
      exact holds
  | cons label rest ih =>
      obtain ⟨next, moved, tail⟩ := (exec_cons_iff step state after label rest).mp ran
      exact ih next (preserved state label next holds within.1 moved)
        (within.2 next moved) tail

/-- The same for an invariant that also speaks of the labels taken so far. -/
theorem exec_past_invariant (own : Label → Prop) (inv : List Label → State → Prop)
    (preserved : ∀ past state label next, inv past state → own label →
      step state label = some next → inv (past ++ [label]) next)
    (past : List Label) (state after : State) (labels : List Label) (holds : inv past state)
    (owned : ∀ label ∈ labels, own label) (ran : exec step state labels = some after) :
    inv (past ++ labels) after := by
  induction labels generalizing past state with
  | nil =>
      cases ran
      rwa [List.append_nil]
  | cons label rest ih =>
      obtain ⟨next, moved, tail⟩ := (exec_cons_iff step state after label rest).mp ran
      rw [List.append_cons]
      exact ih (past ++ [label]) next
        (preserved past state label next holds (owned label List.mem_cons_self) moved)
        (fun later member => owned later (List.mem_cons_of_mem label member)) tail

theorem within_true (state : State) (labels : List Label) :
    Within step (fun _ _ => True) state labels := by
  induction labels generalizing state with
  | nil => trivial
  | cons label rest ih => exact ⟨trivial, fun next _ => ih next⟩

theorem within_own (own : Label → Prop) (state : State) (labels : List Label)
    (owned : ∀ label ∈ labels, own label) :
    Within step (fun _ label => own label) state labels := by
  induction labels generalizing state with
  | nil => trivial
  | cons label rest ih =>
      exact ⟨owned label List.mem_cons_self, fun next _ =>
        ih next fun later member => owned later (List.mem_cons_of_mem label member)⟩

theorem within_append (allowed : State → Label → Prop) (state middle : State)
    (left right : List Label) (first : Within step allowed state left)
    (ran : exec step state left = some middle) (then' : Within step allowed middle right) :
    Within step allowed state (left ++ right) := by
  induction left generalizing state with
  | nil =>
      cases ran
      exact then'
  | cons label rest ih =>
      refine ⟨first.1, fun next moved => ?_⟩
      obtain ⟨other, same, tail⟩ := (exec_cons_iff step state middle label rest).mp ran
      obtain rfl := Option.some.inj (moved.symm.trans same)
      exact ih next (first.2 next moved) tail

theorem stuck_of_preserved (own : Label → Prop) (blocked : State → Prop)
    (preserved : ∀ state label next, blocked state → own label →
      step state label = some next → blocked next)
    (state : State) (holds : blocked state) : Stuck step own blocked state := by
  intro labels after owned ran
  exact exec_invariant step (fun _ label => own label) blocked preserved state after labels holds
    (within_own step own state labels owned) ran

theorem Stuck.now {step : State → Label → Option State} {own : Label → Prop}
    {blocked : State → Prop} {state : State} (stuck : Stuck step own blocked state) :
    blocked state :=
  stuck [] state nofun rfl

theorem reachable_invariant (start inv : State → Prop)
    (initial : ∀ state, start state → inv state)
    (preserved : ∀ state label next, inv state → step state label = some next → inv next)
    (state : State) (reached : Reachable step start state) : inv state := by
  obtain ⟨first, labels, started, ran⟩ := reached
  exact exec_invariant step (fun _ _ => True) inv
    (fun before label next holds _ moved => preserved before label next holds moved)
    first state labels (initial first started) (within_true step first labels) ran

theorem reachable_within_invariant (start inv : State → Prop)
    (allowed : State → Label → Prop) (initial : ∀ state, start state → inv state)
    (preserved : ∀ state label next, inv state → allowed state label →
      step state label = some next → inv next)
    (state : State) (reached : ReachableWithin step start allowed state) : inv state := by
  obtain ⟨first, labels, started, within, ran⟩ := reached
  exact exec_invariant step allowed inv preserved first state labels
    (initial first started) within ran

/-- A step that some steps of another system match, from one image to the other, makes each run a
run of that system. -/
theorem reachable_within_simulated {Abstract : Type*} {Coarse : Type*}
    (coarse : Abstract → Coarse → Option Abstract) (image : State → Abstract)
    (start : State → Prop) (begin : Abstract → Prop) (allowed : State → Label → Prop)
    (permitted : Abstract → Coarse → Prop)
    (initial : ∀ state, start state → ReachableWithin coarse begin permitted (image state))
    (matched : ∀ state label next, allowed state label → step state label = some next →
      ∃ labels, Within coarse permitted (image state) labels ∧
        exec coarse (image state) labels = some (image next))
    (state : State) (reached : ReachableWithin step start allowed state) :
    ReachableWithin coarse begin permitted (image state) := by
  refine reachable_within_invariant step start
    (fun state => ReachableWithin coarse begin permitted (image state)) allowed initial ?_ state
    reached
  rintro before label next ⟨first, labels, began, within, ran⟩ allow moved
  obtain ⟨more, inside, went⟩ := matched before label next allow moved
  refine ⟨first, labels ++ more, began, within_append coarse permitted first _ labels more within
    ran inside, ?_⟩
  rw [exec_append, ran]
  exact went

end SensorNode.StepSystem
