import SensorNode.CallProgram

/-!
Programs and what they were answered. The history of a run is kept as the state of a protocol; a
program is described by how its result fits the part of the history that it adds.
-/

namespace SensorNode.CallHistory

open StepSystem CallProgram

variable {Call Answer Result Later : Type}

abbrev History (Call Answer : Type) := List (Call × Answer)

/-- What may be called depends on what has been answered. -/
def recorded (permitted : History Call Answer → Call → Prop) :
    Protocol Call Answer (History Call Answer) where
  orderly := permitted
  owed _ _ _ := True
  after past call answer := past ++ [(call, answer)]

/-- From any past on all calls are permitted, and the result fits what was answered meanwhile. -/
def Yields (permitted : History Call Answer → Call → Prop)
    (fits : Result → History Call Answer → Prop) (program : Program Call Answer Result) : Prop :=
  ∀ past, Meets (recorded permitted)
    (fun result after => ∃ part, after = past ++ part ∧ fits result part) program past

/-- The same for what an attempt finds, if it does. -/
def Finds (permitted : History Call Answer → Call → Prop)
    (fits : Result → History Call Answer → Prop) (attempt : Attempt Call Answer Result) : Prop :=
  Yields permitted (fun result part => ∀ value ∈ result, fits value part) attempt.run

variable {permitted : History Call Answer → Call → Prop}
  {fits : Result → History Call Answer → Prop} {post : Later → History Call Answer → Prop}

/-! ## Rules -/

theorem yields_pure (result : Result) (fit : fits result []) :
    Yields permitted fits (pure result : Program Call Answer Result) :=
  fun past => ⟨[], (List.append_nil past).symm, fit⟩

theorem yields_mono {other : Result → History Call Answer → Prop}
    {program : Program Call Answer Result} (yields : Yields permitted fits program)
    (weaker : ∀ result part, fits result part → other result part) :
    Yields permitted other program := by
  intro past
  refine meets_mono _ _ _ program past (yields past) ?_
  rintro result _ ⟨part, rfl, fit⟩
  exact ⟨part, rfl, weaker result part fit⟩

theorem yields_bind {program : Program Call Answer Result}
    {next : Result → Program Call Answer Later} (first : Yields permitted fits program)
    (rest : ∀ result one, fits result one →
      Yields permitted (fun later two => post later (one ++ two)) (next result)) :
    Yields permitted post (program >>= next) := by
  intro past
  rw [meets_bind]
  refine meets_mono _ _ _ program past (first past) ?_
  rintro result _ ⟨one, rfl, fit⟩
  refine meets_mono _ _ _ (next result) (past ++ one) (rest result one fit (past ++ one)) ?_
  rintro later _ ⟨two, rfl, fit'⟩
  exact ⟨one ++ two, List.append_assoc past one two, fit'⟩

theorem yields_perform {fits : Answer → History Call Answer → Prop} (call : Call)
    (allowed : ∀ past, permitted past call) (fit : ∀ answer, fits answer [(call, answer)]) :
    Yields permitted fits (perform call) :=
  fun past => ⟨allowed past, fun answer _ => ⟨[(call, answer)], rfl, fit answer⟩⟩

theorem finds_pure (result : Result) (fit : fits result []) :
    Finds permitted fits (pure result : Attempt Call Answer Result) := by
  refine yields_pure _ fun value same => ?_
  obtain rfl := Option.some.inj same
  exact fit

theorem finds_ofOption (found : Option Result) (fit : ∀ value ∈ found, fits value []) :
    Finds permitted fits (ofOption found) := yields_pure found fit

theorem finds_lift {program : Program Call Answer Result}
    (yields : Yields permitted fits program) :
    Finds permitted fits (liftM program : Attempt Call Answer Result) := by
  refine yields_bind yields fun result one fit => yields_pure _ fun value same => ?_
  obtain rfl := Option.some.inj same
  rwa [List.append_nil]

theorem finds_bind {attempt : Attempt Call Answer Result}
    {next : Result → Attempt Call Answer Later} (first : Finds permitted fits attempt)
    (rest : ∀ value one, fits value one →
      Finds permitted (fun later two => post later (one ++ two)) (next value)) :
    Finds permitted post (attempt >>= next) := by
  refine yields_bind first fun result one fit => ?_
  cases result with
  | none =>
      refine yields_pure _ fun value none' => ?_
      cases none'
  | some value => exact rest value one (fit value rfl)

theorem finds_check {fits : Unit → History Call Answer → Prop} {condition : Prop}
    [Decidable condition] (fit : condition → fits () []) :
    Finds permitted fits (guard condition) := by
  by_cases holds : condition
  · rw [guard, if_pos holds]
    exact finds_pure _ (fit holds)
  · rw [guard, if_neg holds]
    refine yields_pure _ fun value none' => ?_
    cases none'

theorem finds_guard {condition : Prop} [Decidable condition]
    {next : Unit → Attempt Call Answer Later}
    (rest : condition → Finds permitted post (next ())) :
    Finds permitted post (guard condition >>= next) := by
  have checks : Finds permitted (fun _ part => condition ∧ part = [])
      (guard condition : Attempt Call Answer Unit) := finds_check fun holds => ⟨holds, rfl⟩
  refine finds_bind checks ?_
  rintro _ _ ⟨holds, rfl⟩
  exact rest holds

theorem finds_some {found : Option Result} {next : Result → Attempt Call Answer Later}
    (rest : ∀ value ∈ found, Finds permitted post (next value)) :
    Finds permitted post (ofOption found >>= next) := by
  have finds : Finds permitted (fun value part => value ∈ found ∧ part = [])
      (ofOption found) := finds_ofOption found fun value member => ⟨member, rfl⟩
  refine finds_bind finds ?_
  rintro value _ ⟨member, rfl⟩
  exact rest value member

theorem finds_perform {next : Answer → Attempt Call Answer Later} (call : Call)
    (allowed : ∀ past, permitted past call)
    (rest : ∀ answer,
      Finds permitted (fun later two => post later ((call, answer) :: two)) (next answer)) :
    Finds permitted post (liftM (perform call) >>= next) := by
  refine finds_bind (finds_lift (yields_perform call allowed fun _ => rfl)) ?_
  rintro answer _ rfl
  exact rest answer

/-! ## Runs -/

/-- The call that a program on its way makes next. -/
def next {State : Type} (course : Course Call Answer State Result) : Option Call :=
  match course.program with
  | .done _ => none
  | .call request _ => some request

/-- In no run is anything called that the history does not permit. -/
theorem recorded_reached {post : Result → History Call Answer → Prop}
    (program : Program Call Answer Result) (meets : Meets (recorded permitted) post program [])
    (course : Course Call Answer (History Call Answer) Result)
    (reached : Reachable (step (recorded permitted)) (fun first => first = ⟨program, []⟩) course)
    (call : Call) (calls : next course = some call) : permitted course.state call := by
  have owed : Owed (recorded permitted) =
      fun (_ : Course Call Answer (History Call Answer) Result) _ => True := by
    funext ⟨program, _⟩ answer
    cases program <;> rfl
  obtain ⟨first, labels, began, ran⟩ := reached
  have within : Within (step (recorded permitted)) (Owed (recorded permitted)) first labels := by
    rw [owed]
    exact within_true _ first labels
  have orderly := meets_reached _ post program [] meets course ⟨first, labels, began, within, ran⟩
  obtain ⟨program, state⟩ := course
  cases program with
  | done result => cases calls
  | call request resume =>
      obtain rfl := Option.some.inj calls
      exact orderly

end SensorNode.CallHistory
