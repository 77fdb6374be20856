import SensorNode.StepSystem

/-!
Programs that call their surroundings. A call is answered, and the answer decides how the program
goes on. A protocol says which calls are in order, which answers the surroundings owe, and what a
call and its answer leave. `Meets` is the precondition under which all calls of a program are in
order while the answers are owed ones; its rules follow the text of the program.
-/

namespace SensorNode.CallProgram

open StepSystem

universe u v
variable {Call Answer State : Type} {Result : Type u} {Later : Type u}

inductive Program (Call Answer : Type) (Result : Type u) : Type u where
  | done (result : Result)
  | call (request : Call) (resume : Answer → Program Call Answer Result)

def Program.bind : Program Call Answer Result → (Result → Program Call Answer Later) →
    Program Call Answer Later
  | .done result, next => next result
  | .call request resume, next => .call request fun answer => (resume answer).bind next

instance : Monad (Program Call Answer) where
  pure := .done
  bind := .bind

def perform (request : Call) : Program Call Answer Answer := .call request .done

/-- A loop that is left after a number of passes. -/
def passes (body : Result → Program Call Answer Result) : Nat → Result →
    Program Call Answer Result
  | 0, result => pure result
  | count + 1, result => body result >>= passes body count

/-- A program whose failure ends what it is part of. -/
abbrev Attempt (Call Answer : Type) := OptionT (Program Call Answer)

def ofOption (value : Option Result) : Attempt Call Answer Result := OptionT.mk (pure value)

structure Protocol (Call Answer State : Type) where
  orderly : State → Call → Prop
  owed : State → Call → Answer → Prop
  after : State → Call → Answer → State

variable (protocol : Protocol Call Answer State)

def Meets (post : Result → State → Prop) : Program Call Answer Result → State → Prop
  | .done result, state => post result state
  | .call request resume, state => protocol.orderly state request ∧
      ∀ answer, protocol.owed state request answer →
        Meets post (resume answer) (protocol.after state request answer)

/-! ## Rules -/

@[simp] theorem meets_pure (post : Result → State → Prop) (result : Result) (state : State) :
    Meets protocol post (pure result) state ↔ post result state := Iff.rfl

@[simp] theorem meets_perform (post : Answer → State → Prop) (request : Call) (state : State) :
    Meets protocol post (perform request) state ↔ protocol.orderly state request ∧
      ∀ answer, protocol.owed state request answer →
        post answer (protocol.after state request answer) := Iff.rfl

@[simp] theorem meets_bind (post : Later → State → Prop) (program : Program Call Answer Result)
    (next : Result → Program Call Answer Later) (state : State) :
    Meets protocol post (program >>= next) state ↔
      Meets protocol (fun result after => Meets protocol post (next result) after) program
        state := by
  induction program generalizing state with
  | done result => rfl
  | call request resume ih =>
      exact and_congr_right fun _ => forall₂_congr fun answer _ => ih answer _

theorem meets_mono (post other : Result → State → Prop) (program : Program Call Answer Result)
    (state : State) (meets : Meets protocol post program state)
    (weaker : ∀ result after, post result after → other result after) :
    Meets protocol other program state := by
  induction program generalizing state with
  | done result => exact weaker result state meets
  | call request resume ih =>
      exact ⟨meets.1, fun answer owed => ih answer _ (meets.2 answer owed)⟩

@[simp] theorem meets_run_pure (post : Option Result → State → Prop) (result : Result)
    (state : State) :
    Meets protocol post (pure result : Attempt Call Answer Result).run state ↔
      post (some result) state := Iff.rfl

@[simp] theorem meets_run_lift (post : Option Result → State → Prop)
    (program : Program Call Answer Result) (state : State) :
    Meets protocol post (liftM program : Attempt Call Answer Result).run state ↔
      Meets protocol (fun result after => post (some result) after) program state :=
  meets_bind protocol post program _ state

@[simp] theorem meets_run_bind (post : Option Later → State → Prop)
    (attempt : Attempt Call Answer Result) (next : Result → Attempt Call Answer Later)
    (state : State) :
    Meets protocol post (attempt >>= next).run state ↔
      Meets protocol (fun result after =>
        result.elim (post none after) fun value => Meets protocol post (next value).run after)
        attempt.run state := by
  refine (meets_bind protocol post attempt.run _ state).trans (iff_of_eq ?_)
  congr 1
  funext result after
  cases result <;> rfl

@[simp] theorem meets_run_ofOption (post : Option Result → State → Prop) (value : Option Result)
    (state : State) :
    Meets protocol post (ofOption value : Attempt Call Answer Result).run state ↔
      post value state := Iff.rfl

@[simp] theorem meets_run_guard (post : Option Unit → State → Prop) (condition : Prop)
    [Decidable condition] (state : State) :
    Meets protocol post (guard condition : Attempt Call Answer Unit).run state ↔
      if condition then post (some ()) state else post none state := by
  unfold guard
  split <;> rfl

/-! ## Invariants -/

/-- Whatever the program returns, it leaves the state as the invariant has it. -/
def Keeps (inv : State → Prop) (program : Program Call Answer Result) : Prop :=
  ∀ state, inv state → Meets protocol (fun _ after => inv after) program state

variable {protocol} {inv : State → Prop}

theorem keeps_pure (result : Result) :
    Keeps protocol inv (pure result : Program Call Answer Result) := fun _ holds => holds

theorem keeps_bind {program : Program Call Answer Result}
    {next : Result → Program Call Answer Later} (first : Keeps protocol inv program)
    (then' : ∀ result, Keeps protocol inv (next result)) :
    Keeps protocol inv (program >>= next) := by
  intro state holds
  rw [meets_bind]
  exact meets_mono protocol _ _ program state (first state holds) fun result after kept =>
    then' result after kept

theorem keeps_ite (condition : Prop) [Decidable condition]
    {one two : Program Call Answer Result} (yes : Keeps protocol inv one)
    (no : Keeps protocol inv two) : Keeps protocol inv (if condition then one else two) := by
  split
  · exact yes
  · exact no

theorem keeps_run_pure (result : Result) :
    Keeps protocol inv (pure result : Attempt Call Answer Result).run := fun _ holds => holds

theorem keeps_run_lift {program : Program Call Answer Result}
    (kept : Keeps protocol inv program) :
    Keeps protocol inv (liftM program : Attempt Call Answer Result).run :=
  keeps_bind kept fun _ => keeps_pure _

theorem keeps_run_ofOption (value : Option Result) :
    Keeps protocol inv (ofOption value : Attempt Call Answer Result).run := fun _ holds => holds

theorem keeps_run_guard (condition : Prop) [Decidable condition] :
    Keeps protocol inv (guard condition : Attempt Call Answer Unit).run := by
  intro state holds
  rw [meets_run_guard]
  split <;> exact holds

theorem keeps_run_bind {attempt : Attempt Call Answer Result}
    {next : Result → Attempt Call Answer Later} (first : Keeps protocol inv attempt.run)
    (then' : ∀ result, Keeps protocol inv (next result).run) :
    Keeps protocol inv (attempt >>= next).run := by
  intro state holds
  rw [meets_run_bind]
  refine meets_mono protocol _ _ attempt.run state (first state holds) fun result after kept => ?_
  cases result with
  | none => exact kept
  | some value => exact then' value after kept

theorem keeps_passes {body : Result → Program Call Answer Result}
    (kept : ∀ result, Keeps protocol inv (body result)) (count : Nat) (result : Result) :
    Keeps protocol inv (passes body count result) := by
  induction count generalizing result with
  | zero => exact keeps_pure result
  | succ count ih => exact keeps_bind (kept result) ih

variable (protocol)

/-! ## Runs -/

/-- A program on its way, with the state that the protocol has come to. -/
structure Course (Call Answer State : Type) (Result : Type u) where
  program : Program Call Answer Result
  state : State

def step (course : Course Call Answer State Result) (answer : Answer) :
    Option (Course Call Answer State Result) :=
  match course.program with
  | .done _ => none
  | .call request resume => some ⟨resume answer, protocol.after course.state request answer⟩

def Owed (course : Course Call Answer State Result) (answer : Answer) : Prop :=
  match course.program with
  | .done _ => True
  | .call request _ => protocol.owed course.state request answer

instance [∀ state request answer, Decidable (protocol.owed state request answer)] :
    ∀ (course : Course Call Answer State Result) answer, Decidable (Owed protocol course answer)
  | ⟨.done _, _⟩, _ => isTrue trivial
  | ⟨.call request _, state⟩, answer =>
      inferInstanceAs (Decidable (protocol.owed state request answer))

/-- The call that is to be made is in order, or the program is done as it should be. -/
def InOrder (post : Result → State → Prop) (course : Course Call Answer State Result) : Prop :=
  match course.program with
  | .done result => post result course.state
  | .call request _ => protocol.orderly course.state request

theorem meets_reached (post : Result → State → Prop) (program : Program Call Answer Result)
    (state : State) (meets : Meets protocol post program state)
    (course : Course Call Answer State Result)
    (reached : ReachableWithin (step protocol) (fun first => first = ⟨program, state⟩)
      (Owed protocol) course) : InOrder protocol post course := by
  have kept : Meets protocol post course.program course.state := by
    refine reachable_within_invariant (step protocol) _
      (fun course => Meets protocol post course.program course.state) (Owed protocol) ?_ ?_ course
      reached
    · rintro _ rfl
      exact meets
    · rintro ⟨program, state⟩ answer next holds owed moved
      cases program with
      | done result => cases moved
      | call request resume =>
          obtain rfl := Option.some.inj moved
          exact holds.2 answer owed
  obtain ⟨program, state⟩ := course
  cases program with
  | done result => exact kept
  | call request resume => exact kept.1

end SensorNode.CallProgram
