import Mathlib.Logic.Relation

namespace Machine

/-! An action names every choice that is not the program's own: which call the user
makes, what the environment answers, which thread moves.  A step function then
is deterministic, and a property of every run is a property of every sequence
of actions.  `allowed` restricts the actions a run may take; it may look at the
state in which the action is taken.
-/

variable {State Action : Type*} {step : State → Action → Option State}
  {allowed other : State → Action → Prop} {start before after : State}

def Taken (step : State → Action → Option State) (allowed : State → Action → Prop)
    (before after : State) : Prop :=
  ∃ action, allowed before action ∧ step before action = some after

/-- Some run of allowed actions leads from one state to the other. -/
abbrev Reaches (step : State → Action → Option State) (allowed : State → Action → Prop) :
    State → State → Prop :=
  Relation.ReflTransGen (Taken step allowed)

theorem Reaches.extend (reached : Reaches step allowed start before) {action : Action}
    (permitted : allowed before action) (taken : step before action = some after) :
    Reaches step allowed start after :=
  reached.tail ⟨action, permitted, taken⟩

abbrev Leads (step : State → Action → Option State) : State → State → Prop :=
  Reaches step fun _ _ => True

theorem leads_one {action : Action} (taken : step before action = some after) :
    Leads step before after :=
  Reaches.extend .refl trivial taken

/-- What one allowed step keeps, a whole run keeps. -/
theorem Reaches.invariant (Holds : State → Prop) (initial : Holds start)
    (keeps : ∀ before action after, Holds before → allowed before action →
      step before action = some after → Holds after)
    (reached : Reaches step allowed start after) : Holds after := by
  induction reached with
  | refl => exact initial
  | tail _ last holds =>
    obtain ⟨action, permitted, taken⟩ := last
    exact keeps _ action _ holds permitted taken

theorem Reaches.mono (weaker : ∀ state action, allowed state action → other state action)
    (reached : Reaches step allowed start after) : Reaches step other start after := by
  refine Relation.ReflTransGen.mono ?_ _ _ reached
  rintro first second ⟨action, permitted, taken⟩
  exact ⟨action, weaker first action permitted, taken⟩

theorem Reaches.all_or_exists (wanted : State → Action → Prop)
    (reached : Reaches step allowed start after) :
    Reaches step (fun state action => allowed state action ∧ wanted state action) start after ∨
      ∃ before action next, Reaches step allowed start before ∧ allowed before action ∧
        ¬ wanted before action ∧ step before action = some next ∧
        Reaches step allowed next after := by
  induction reached with
  | refl => exact .inl .refl
  | @tail middle last before stepped ih =>
    obtain ⟨action, permitted, taken⟩ := stepped
    rcases ih with all | ⟨first, other, next, sooner, allows, unwanted, moved, later⟩
    · by_cases here : wanted middle action
      · exact .inl (all.extend ⟨permitted, here⟩ taken)
      · exact .inr ⟨middle, action, last, before, permitted, here, taken, .refl⟩
    · exact .inr ⟨first, other, next, sooner, allows, unwanted, moved,
        later.extend permitted taken⟩

/-- The machine with a log of what its actions answer, which no step reads. -/
def record {Entry : Type*} (answers : State → Action → List Entry)
    (step : State → Action → Option State) (s : State × List Entry) (action : Action) :
    Option (State × List Entry) :=
  (step s.1 action).map fun after => (after, answers s.1 action ++ s.2)

theorem Reaches.of_record {Entry : Type*} {answers : State → Action → List Entry}
    {log : List Entry} {recorded : State × List Entry}
    (reached : Reaches (record answers step) (fun s => allowed s.1) (start, log) recorded) :
    Reaches step allowed start recorded.1 := by
  refine reached.invariant (fun recorded => Reaches step allowed start recorded.1) .refl ?_
  intro before action after sooner permitted taken
  obtain ⟨next, moved, rfl⟩ := Option.map_eq_some_iff.mp taken
  exact sooner.extend permitted moved

/-- What can be done once more after `k` times can be done `count` times. -/
theorem Reaches.iterate (At : Nat → State → Prop) (count : Nat)
    (next : ∀ k < count, ∀ before, At k before →
      ∃ after, Reaches step allowed before after ∧ At (k + 1) after)
    (initial : At 0 start) : ∃ after, Reaches step allowed start after ∧ At count after := by
  induction count with
  | zero => exact ⟨start, .refl, initial⟩
  | succ count ih =>
    obtain ⟨middle, reached, here⟩ := ih fun k inside => next k (Nat.lt_succ_of_lt inside)
    obtain ⟨after, further, there⟩ := next count (Nat.lt_succ_self count) middle here
    exact ⟨after, reached.trans further, there⟩

/-- The run of a list of actions, executable; it stops at the first action that
is not allowed or that the machine cannot take. -/
def run (step : State → Action → Option State) (allowed : State → Action → Prop)
    [∀ state action, Decidable (allowed state action)] : State → List Action → Option State
  | state, [] => some state
  | state, action :: rest =>
    if allowed state action then
      match step state action with
      | some next => run step allowed next rest
      | none => none
    else none

theorem reaches_of_run [∀ state action, Decidable (allowed state action)] {actions : List Action}
    (ran : run step allowed start actions = some after) : Reaches step allowed start after := by
  induction actions generalizing start with
  | nil => cases ran; exact .refl
  | cons action rest ih =>
    by_cases permitted : allowed start action
    · cases taken : step start action with
      | none => simp [run, permitted, taken] at ran
      | some next =>
        have remaining : run step allowed next rest = some after := by
          simpa [run, permitted, taken] using ran
        exact .head ⟨action, permitted, taken⟩ (ih remaining)
    · simp [run, permitted] at ran

theorem exists_of_run (step : State → Action → Option State) (allowed : State → Action → Prop)
    (start : State) (actions : List Action) (facts : State → Prop)
    [∀ state action, Decidable (allowed state action)] [∀ after, Decidable (facts after)]
    (ran : ((run step allowed start actions).map fun after => decide (facts after)) = some true) :
    ∃ after, Reaches step allowed start after ∧ facts after := by
  obtain ⟨after, reached, holds⟩ := Option.map_eq_some_iff.mp ran
  exact ⟨after, reaches_of_run reached, of_decide_eq_true holds⟩

/-- A run up to a state in which something is called, and the run of the call from there; what
the call may do can depend on the state it was made in. -/
theorem exists_call_of_run (step : State → Action → Option State)
    (allowed : State → Action → Prop) (start : State)
    (before : List Action) (call : Action) (inside : State → State → Action → Prop)
    (during : List Action) (facts : State → State → Prop)
    [∀ state action, Decidable (allowed state action)]
    [∀ called state action, Decidable (inside called state action)]
    [∀ called after, Decidable (facts called after)]
    (ran : ((run step allowed start before).bind fun called =>
      (step called call).bind fun begun =>
        (run step (inside called) begun during).map fun after => decide (facts called after)) =
      some true) :
    ∃ called begun after, Reaches step allowed start called ∧ step called call = some begun ∧
      Reaches step (inside called) begun after ∧ facts called after := by
  obtain ⟨called, reached, ran⟩ := Option.bind_eq_some_iff.mp ran
  obtain ⟨begun, taken, ran⟩ := Option.bind_eq_some_iff.mp ran
  obtain ⟨after, returned, holds⟩ := Option.map_eq_some_iff.mp ran
  exact ⟨called, begun, after, reaches_of_run reached, taken, reaches_of_run returned,
    of_decide_eq_true holds⟩

section Ends

variable {Holds Final : State → Prop} (measure : State → Nat)

/-- A run has no more steps than the measure it starts with. -/
theorem length_le_of_run [∀ state action, Decidable (allowed state action)]
    (keeps : ∀ before action after, Holds before → allowed before action →
      step before action = some after → Holds after)
    (decreases : ∀ before action after, Holds before → allowed before action →
      step before action = some after → measure after < measure before)
    {actions : List Action} (initial : Holds start)
    (ran : run step allowed start actions = some after) :
    actions.length + measure after ≤ measure start := by
  induction actions generalizing start with
  | nil => cases ran; simp
  | cons action rest ih =>
    by_cases permitted : allowed start action
    · cases taken : step start action with
      | none => simp [run, permitted, taken] at ran
      | some next =>
        have remaining : run step allowed next rest = some after := by
          simpa [run, permitted, taken] using ran
        have later := ih (keeps start action next initial permitted taken) remaining
        have less := decreases start action next initial permitted taken
        rw [List.length_cons]
        omega
    · simp [run, permitted] at ran

/-- Where every state that is not final has a next step, a final state is reached. -/
theorem exists_final
    (keeps : ∀ before action after, Holds before → allowed before action →
      step before action = some after → Holds after)
    (decreases : ∀ before action after, Holds before → allowed before action →
      step before action = some after → measure after < measure before)
    (proceeds : ∀ state, Holds state → ¬ Final state →
      ∃ action after, allowed state action ∧ step state action = some after)
    (initial : Holds start) : ∃ last, Reaches step allowed start last ∧ Final last := by
  induction bound : measure start using Nat.strongRecOn generalizing start with
  | _ bound ih =>
    by_cases ended : Final start
    · exact ⟨start, .refl, ended⟩
    · obtain ⟨action, next, permitted, taken⟩ := proceeds start initial ended
      have less := decreases start action next initial permitted taken
      obtain ⟨last, reached, final⟩ := ih (measure next) (by omega)
        (keeps start action next initial permitted taken) rfl
      exact ⟨last, .head ⟨action, permitted, taken⟩ reached, final⟩

end Ends

end Machine
