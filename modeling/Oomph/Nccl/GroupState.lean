import Oomph.Nccl.Settled
import Oomph.Machine.Run

namespace Oomph.Nccl

open Machine

/-! `start_group` and `end_group` make two calls that may fail, one of NCCL and one of CUDA, and
`m_group_info` changes after both.  When the second one fails the communicator has not noticed
what the first one did.
-/

inductive GroupCall
  | start
  | finish
deriving DecidableEq, Repr

namespace State

def active (s : State) (comm : Nat) : Bool :=
  s.comms[comm]?.any (·.isGroupActive)

/-- The successful `ncclGroupStart` or `ncclGroupEnd` that a call makes, with the communicator it
is made for. -/
def groupCall (s : State) : Action → Option (Nat × GroupCall)
  | .startGroup comm answer =>
    if comm < s.comms.length ∧ s.active comm = false ∧ answer ≠ .ncclFails then
      some (comm, .start)
    else none
  | .endGroup comm answer =>
    if s.active comm = true ∧ answer ≠ .ncclFails then some (comm, .finish) else none
  | _ => none

/-- The call of CUDA fails that follows a successful call of NCCL. -/
def CudaFails (s : State) : Action → Prop
  | .startGroup comm .createFails => s.active comm = false
  | .endGroup comm .recordFails => s.active comm = true
  | _ => False

instance (s : State) (action : Action) : Decidable (s.CudaFails action) := by
  unfold CudaFails
  split <;> infer_instance

end State

structure Logged where
  state : State
  calls : List (Nat × GroupCall)

namespace Logged

def initial : Logged :=
  { state := .initial, calls := [] }

/-- The communicator has started a group of NCCL that it has not ended since. -/
def Open (calls : List (Nat × GroupCall)) (comm : Nat) : Prop :=
  ∃ newer older, calls = newer ++ (comm, .start) :: older ∧ (comm, .finish) ∉ newer

/-- The communicators know which of them have a group of NCCL open. -/
def Agrees (l : Logged) : Prop :=
  ∀ comm, l.state.active comm = true ↔ Open l.calls comm

end Logged

def stepLogged (rank : RankType) (l : Logged) (action : Action) : Option Logged :=
  (step rank l.state action).map fun after =>
    { state := after, calls := (l.state.groupCall action).toList ++ l.calls }

variable {rank : RankType} {s t : State} {action : Action} {comm other : Nat}
  {calls : List (Nat × GroupCall)}

theorem open_start : Logged.Open ((comm, .start) :: calls) other ↔
    other = comm ∨ Logged.Open calls other := by
  constructor
  · rintro ⟨newer, older, split, none⟩
    cases newer with
    | nil =>
      have same := (List.cons.inj split).1
      exact .inl (Prod.mk.inj same).1.symm
    | cons first newer =>
      exact .inr ⟨newer, older, (List.cons.inj split).2,
        fun member => none (List.mem_cons_of_mem _ member)⟩
  · rintro (rfl | ⟨newer, older, rfl, none⟩)
    · exact ⟨[], calls, rfl, by simp⟩
    · exact ⟨(comm, .start) :: newer, older, rfl, by simpa using none⟩

theorem open_finish : Logged.Open ((comm, .finish) :: calls) other ↔
    other ≠ comm ∧ Logged.Open calls other := by
  constructor
  · rintro ⟨newer, older, split, none⟩
    cases newer with
    | nil => cases (List.cons.inj split).1
    | cons first newer =>
      obtain ⟨rfl, rest⟩ := List.cons.inj split
      rw [List.mem_cons, not_or] at none
      exact ⟨fun same => none.1 (by rw [same]), newer, older, rest, none.2⟩
  · rintro ⟨different, newer, older, rfl, none⟩
    refine ⟨(comm, .finish) :: newer, older, rfl, ?_⟩
    simpa [different] using none

def groupsAfter (active : Nat → Bool) : Option (Nat × GroupCall) → Nat → Bool
  | some (comm, .start) => Function.update active comm true
  | some (comm, .finish) => Function.update active comm false
  | none => active

private theorem active_of_comms (same : t.comms = s.comms) : t.active = s.active := by
  funext comm
  rw [State.active, State.active, same]

private theorem active_of_modify {change : CommunicatorImpl → CommunicatorImpl}
    (comms : t.comms = s.comms.modify comm change)
    (same : ∀ c, s.comms[comm]? = some c → (change c).isGroupActive = c.isGroupActive) :
    t.active = s.active := by
  funext other
  rw [State.active, State.active, comms, List.getElem?_modify]
  by_cases here : comm = other
  · subst other
    cases found : s.comms[comm]? with
    | none => rfl
    | some c => simpa using same c found
  · simp [here]

private theorem active_of_set {c : CommunicatorImpl} (groupInfo : Option GroupInfo)
    (comms : t.comms = s.comms.modify comm (·.setGroupInfo groupInfo))
    (found : s.comms[comm]? = some c) :
    t.active = Function.update s.active comm groupInfo.isSome := by
  funext other
  rw [State.active, comms, List.getElem?_modify]
  by_cases here : comm = other
  · subst other
    simp [found, CommunicatorImpl.setGroupInfo, CommunicatorImpl.isGroupActive]
  · simp [here, Ne.symm here, State.active]

private theorem active_of_found {c : CommunicatorImpl} (found : s.comms[comm]? = some c) :
    s.active comm = c.isGroupActive := by
  simp [State.active, found]

theorem startGroup_active {answer : Answer} (taken : s.startGroup comm answer = some t)
    (works : ¬ s.CudaFails (.startGroup comm answer)) :
    t.active = groupsAfter s.active (s.groupCall (.startGroup comm answer)) := by
  unfold State.startGroup at taken
  cases found : s.comms[comm]? with
  | none => simp [found] at taken
  | some c =>
    have inside := (List.getElem?_eq_some_iff.mp found).1
    have here := active_of_found found
    simp only [found] at taken
    cases active : c.isGroupActive with
    | true =>
      simp only [active, if_true, Option.some.injEq] at taken
      subst t
      have none : s.groupCall (.startGroup comm answer) = none := by
        simp [State.groupCall, here, active]
      rw [none]
      exact active_of_comms rfl
    | false =>
      simp only [active, Bool.false_eq_true, if_false] at taken
      cases answer with
      | ok =>
        cases taken
        simp only [State.groupCall, here, active, inside, groupsAfter, ne_eq, reduceCtorEq,
          not_false_eq_true, and_self, if_true]
        exact active_of_set (some ⟨s.groupEvents.length, none⟩) rfl found
      | ncclFails =>
        cases taken
        have none : s.groupCall (.startGroup comm .ncclFails) = none := by
          simp [State.groupCall]
        rw [none]
        exact active_of_comms rfl
      | createFails => exact absurd (here.trans active) works
      | recordFails => cases taken

theorem endGroup_active {answer : Answer} (taken : s.endGroup comm answer = some t)
    (works : ¬ s.CudaFails (.endGroup comm answer)) :
    t.active = groupsAfter s.active (s.groupCall (.endGroup comm answer)) := by
  unfold State.endGroup at taken
  cases found : s.comms[comm]? with
  | none => simp [found] at taken
  | some c =>
    have here := active_of_found found
    simp only [found] at taken
    cases known : c.groupInfo with
    | none =>
      simp only [known, Option.some.injEq] at taken
      subst t
      have none : s.groupCall (.endGroup comm answer) = none := by
        simp [State.groupCall, here, CommunicatorImpl.isGroupActive, known]
      rw [none]
      exact active_of_comms rfl
    | some info =>
      have active : s.active comm = true := by
        simp [here, CommunicatorImpl.isGroupActive, known]
      obtain ⟨event, lastStream⟩ := info
      simp only [known] at taken
      cases answer with
      | ok =>
        simp only [State.groupCall, active, groupsAfter, ne_eq, reduceCtorEq,
          not_false_eq_true, and_self, if_true]
        cases lastStream with
        | none => cases taken; exact active_of_set none rfl found
        | some stream => cases taken; exact active_of_set none rfl found
      | ncclFails =>
        cases taken
        have none : s.groupCall (.endGroup comm .ncclFails) = none := by
          simp [State.groupCall]
        rw [none]
        exact active_of_comms rfl
      | createFails => cases lastStream <;> cases taken
      | recordFails => exact absurd active works

theorem active_of_effect (effect : Effect rank s action t)
    (starts : ∀ comm answer, action ≠ .startGroup comm answer)
    (ends : ∀ comm answer, action ≠ .endGroup comm answer) : t.active = s.active := by
  cases effect with
  | getCommunicator =>
    funext comm
    rcases Nat.lt_trichotomy comm s.comms.length with inside | rfl | outside
    · simp [State.active, State.addCommunicator, List.getElem?_append_left inside]
    · simp [State.active, State.addCommunicator, CommunicatorImpl.empty,
        CommunicatorImpl.isGroupActive]
    · have before : s.comms[comm]? = none := List.getElem?_eq_none (Nat.le_of_lt outside)
      have after : (s.comms ++ [CommunicatorImpl.empty])[comm]? = none :=
        List.getElem?_eq_none (by rw [List.length_append]; exact outside)
      rw [State.active, State.active, State.addCommunicator_comms, before, after]
  | startGroup | startFailed => exact absurd rfl (starts _ _)
  | endEmpty | endGroup | endFailed => exact absurd rfl (ends _ _)
  | postGroup comm kind peer tag stream c info _ found known =>
    have opened : ((s.ncclPost s.posts.length).modifyComm comm (·.setGroupInfo
        (some { info with lastStream := some stream }))).active = s.active := by
      refine active_of_modify rfl fun other same => ?_
      cases found.symm.trans same
      simp [CommunicatorImpl.isGroupActive, CommunicatorImpl.setGroupInfo, known]
    rw [← opened]
    exact active_of_modify rfl fun c _ => by cases kind <;> rfl
  | postSingle comm kind => exact active_of_modify rfl fun c _ => by cases kind <;> rfl
  | scan comm side c rest _ found => exact active_of_modify rfl fun c _ => by cases side <;> rfl
  | scanFailed comm side c rest i req scanned _ found =>
    exact active_of_modify rfl fun c _ => by cases side <;> rfl
  | done comm side c rest => exact active_of_modify rfl fun c _ => by cases side <;> rfl
  | _ => exact active_of_comms rfl

private theorem call_of_user {outcome : Option State} (taken : s.call outcome = some t) :
    outcome = some t := by
  unfold State.call at taken
  split at taken
  · exact taken
  · cases taken

theorem active_of_step (taken : step rank s action = some t) (works : ¬ s.CudaFails action) :
    t.active = groupsAfter s.active (s.groupCall action) := by
  cases action with
  | startGroup comm answer => exact startGroup_active (call_of_user taken) works
  | endGroup comm answer => exact endGroup_active (call_of_user taken) works
  | _ => exact active_of_effect (step_effect taken) nofun nofun

theorem active_of_cudaFails (taken : step rank s action = some t) (fails : s.CudaFails action) :
    ∃ comm call, s.groupCall action = some (comm, call) ∧
      (t.active comm = true ↔ call = .finish) := by
  cases action with
  | startGroup comm answer =>
    cases answer <;> try cases fails
    have inactive : s.active comm = false := fails
    have started := call_of_user taken
    unfold State.startGroup at started
    cases found : s.comms[comm]? with
    | none => simp [found] at started
    | some c =>
      have closed : c.isGroupActive = false := (active_of_found found).symm.trans inactive
      have inside := (List.getElem?_eq_some_iff.mp found).1
      simp only [found, closed, Bool.false_eq_true, if_false] at started
      split at started
      · cases started
        refine ⟨comm, .start, by simp [State.groupCall, inside, inactive], ?_⟩
        have same : (s.ncclGroupStart.throws .cuda).active = s.active := active_of_comms rfl
        rw [same, inactive]
        decide
      · cases started
  | endGroup comm answer =>
    cases answer <;> try cases fails
    have active : s.active comm = true := fails
    have ended := call_of_user taken
    unfold State.endGroup at ended
    cases found : s.comms[comm]? with
    | none => simp [found] at ended
    | some c =>
      cases known : c.groupInfo with
      | none =>
        rw [active_of_found found, CommunicatorImpl.isGroupActive, known] at active
        cases active
      | some info =>
        obtain ⟨event, lastStream⟩ := info
        simp only [found, known] at ended
        cases lastStream <;> cases ended
        refine ⟨comm, .finish, by simp [State.groupCall, active], ?_⟩
        have same : (s.ncclGroupEnd.throws .cuda).active = s.active := active_of_comms rfl
        rw [same, active]
        decide
  | _ => cases fails

namespace Logged

variable {l after : Logged}

theorem Agrees.step (agrees : l.Agrees) (taken : stepLogged rank l action = some after)
    (works : ¬ l.state.CudaFails action) : after.Agrees := by
  obtain ⟨t, moved, rfl⟩ := Option.map_eq_some_iff.mp taken
  intro other
  have active := congrFun (active_of_step moved works) other
  cases made : l.state.groupCall action with
  | none =>
    rw [made] at active
    rw [active]
    exact agrees other
  | some call =>
    obtain ⟨comm, call⟩ := call
    rw [made] at active
    cases call with
    | start =>
      rw [active, Option.toList_some, List.singleton_append, open_start, groupsAfter,
        Function.update_apply]
      by_cases same : other = comm
      · simp [same]
      · simp [same, agrees other]
    | finish =>
      rw [active, Option.toList_some, List.singleton_append, open_finish, groupsAfter,
        Function.update_apply]
      by_cases same : other = comm
      · simp [same]
      · simp [same, agrees other]

theorem not_agrees_of_cudaFails (taken : stepLogged rank l action = some after)
    (fails : l.state.CudaFails action) : ¬ after.Agrees := by
  obtain ⟨t, moved, rfl⟩ := Option.map_eq_some_iff.mp taken
  obtain ⟨comm, call, made, active⟩ := active_of_cudaFails moved fails
  intro agrees
  have known := agrees comm
  rw [made, Option.toList_some, List.singleton_append, active] at known
  cases call with
  | start => simp [open_start] at known
  | finish => simp [open_finish] at known

end Logged

/-- As long as no call of CUDA fails after a call of NCCL, the communicators and NCCL agree on the
groups, and the first such failure ends that. -/
theorem groups_agree (rank : RankType) :
    (∀ l, Reaches (stepLogged rank) (fun l action => ¬ l.state.CudaFails action) .initial l →
      l.Agrees) ∧
    ∀ l after action, l.Agrees → stepLogged rank l action = some after →
      (after.Agrees ↔ ¬ l.state.CudaFails action) := by
  constructor
  · intro l reached
    have start : Logged.initial.Agrees := by
      intro comm
      simp [Logged.initial, State.initial, State.active, Logged.Open]
    exact Reaches.invariant Logged.Agrees start
      (fun _ _ _ agrees works taken => agrees.step taken works) reached
  · intro l after action agrees taken
    exact ⟨fun agreed fails => Logged.not_agrees_of_cudaFails taken fails agreed,
      fun works => agrees.step taken works⟩

/-- A group with one send is open, and `ncclGroupEnd` fails before it succeeds. -/
theorem groups_agree_reached :
    ∃ l, Reaches (stepLogged 0) (fun l action => ¬ l.state.CudaFails action) .initial l ∧
      l.state.active 0 = true ∧ l.Agrees := by
  have ran : (run (stepLogged 0) (fun l action => ¬ l.state.CudaFails action) .initial
      [.getCommunicator, .startGroup 0 .ok, .post 0 .send 1 7 0 .ok, .endGroup 0 .ncclFails]).map
      (fun l => l.state.active 0) = some true := by decide +kernel
  obtain ⟨l, reached, active⟩ := Option.map_eq_some_iff.mp ran
  have reached := reaches_of_run reached
  exact ⟨l, reached, active, (groups_agree 0).1 l reached⟩

/-- `ncclGroupEnd` succeeds and `cudaEventRecord` fails: the communicator still has its group. -/
theorem record_failure_keeps_group :
    ∃ l, Leads (stepLogged 0) .initial l ∧ l.state.active 0 = true ∧
      l.calls = [(0, .finish), (0, .start)] ∧ l.state.groupDepth = 0 ∧ ¬ l.Agrees := by
  obtain ⟨l, reached, active, calls, depth⟩ := exists_of_run (stepLogged 0) (fun _ _ => True)
      .initial
    [.getCommunicator, .startGroup 0 .ok, .post 0 .send 1 7 0 .ok, .endGroup 0 .recordFails]
    (fun l => l.state.active 0 = true ∧ l.calls = [(0, .finish), (0, .start)] ∧
      l.state.groupDepth = 0) (by decide +kernel)
  refine ⟨l, reached, active, calls, depth, fun agrees => ?_⟩
  have opened := (agrees 0).mp active
  rw [calls, open_finish] at opened
  exact opened.1 rfl

end Oomph.Nccl
