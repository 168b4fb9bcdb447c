import Oomph.Nccl.Settled

namespace Oomph.Nccl

open Machine

/-! The requests of a group wait for one event, which `end_group` records.  An event that has been
recorded for an earlier request keeps `m_recorded` in the pool, so it is ready as soon as it is
taken out again.
-/

variable {rank : RankType} {s t : State} {action : Action} {comm op g : Nat}

def State.groupOf (s : State) (comm : Nat) : Option Nat :=
  s.comms[comm]?.bind fun c => c.groupInfo.map (·.event)

theorem State.groupOf_eq_some : s.groupOf comm = some g ↔
    ∃ c info, s.comms[comm]? = some c ∧ c.groupInfo = some info ∧ info.event = g := by
  simp [groupOf, Option.bind_eq_some_iff]

inductive GroupStep (s : State) (action : Action) (t : State) : Prop
  | same : t.groupEvents = s.groupEvents → s.marks <:+ t.marks →
      (∀ i g, t.groupOf i = some g → s.groupOf i = some g) → GroupStep s action t
  | opened (comm : Nat) (c : CommunicatorImpl) : action = .startGroup comm .ok →
      s.comms[comm]? = some c → c.groupInfo = none →
      t.groupEvents = s.groupEvents ++ [s.nextEvent] → t.marks = s.marks →
      (∀ i g, t.groupOf i = some g → s.groupOf i = some g ∨ i = comm ∧ g = s.groupEvents.length) →
      GroupStep s action t
  | recorded (comm : Nat) (c : CommunicatorImpl) (g stream : Nat) : action = .endGroup comm .ok →
      s.comms[comm]? = some c → c.groupInfo = some ⟨g, some stream⟩ →
      t.groupEvents = s.groupEvents.modify g (fun e => { e with recorded := true }) →
      t.marks = .recorded (.group g) stream :: s.ncclGroupEnd.marks →
      (∀ i g, t.groupOf i = some g → i ≠ comm ∧ s.groupOf i = some g) → GroupStep s action t

section

variable {change : CommunicatorImpl → CommunicatorImpl} {i : Nat}

private theorem groupOf_of_modify (opened : t.groupOf i = some g)
    (comms : t.comms = s.comms.modify comm change) :
    i ≠ comm ∧ s.groupOf i = some g ∨ i = comm ∧ ∃ c info, s.comms[comm]? = some c ∧
      (change c).groupInfo = some info ∧ info.event = g := by
  obtain ⟨c, info, found, here, event⟩ := State.groupOf_eq_some.mp opened
  rw [comms] at found
  obtain ⟨before, old, ⟨rfl, other⟩ | ⟨rfl, rfl⟩⟩ := getElem?_modify_cases found
  · exact .inl ⟨other, State.groupOf_eq_some.mpr ⟨c, info, old, here, event⟩⟩
  · exact .inr ⟨rfl, before, info, old, here, event⟩

private theorem groupOf_of_modify_same (opened : t.groupOf i = some g)
    (comms : t.comms = s.comms.modify comm change)
    (same : ∀ c, s.comms[comm]? = some c →
      (change c).groupInfo.map (·.event) = c.groupInfo.map (·.event)) : s.groupOf i = some g := by
  rcases groupOf_of_modify opened comms with ⟨_, old⟩ | ⟨rfl, c, info, found, here, event⟩
  · exact old
  · have kept := same c found
    rw [here, Option.map_some, event] at kept
    simp [State.groupOf, found, ← kept]

private theorem groupOf_of_same (opened : t.groupOf i = some g) (comms : t.comms = s.comms) :
    s.groupOf i = some g := by
  rwa [State.groupOf, comms] at opened

private theorem groupOf_of_reset (opened : t.groupOf i = some g)
    (comms : t.comms = s.comms.modify comm (·.setGroupInfo none)) :
    i ≠ comm ∧ s.groupOf i = some g := by
  rcases groupOf_of_modify opened comms with old | ⟨_, _, _, _, here, _⟩
  · exact old
  · cases here

end

theorem State.marks_ncclGroupEnd : s.marks <:+ s.ncclGroupEnd.marks := by
  rw [ncclGroupEnd_marks]
  split
  · exact List.suffix_append _ _
  · exact List.suffix_refl _

theorem State.marks_ncclPost : s.marks <:+ (s.ncclPost op).marks := by
  rw [ncclPost_marks]
  split
  · exact List.suffix_cons _ _
  · exact List.suffix_refl _

theorem groups_of_effect (effect : Effect rank s action t) : GroupStep s action t := by
  cases effect with
  | getCommunicator =>
    refine .same rfl (List.suffix_refl _) fun i g opened => ?_
    obtain ⟨c, info, found, here, event⟩ := State.groupOf_eq_some.mp opened
    rcases concat_cases found with ⟨_, old⟩ | ⟨_, rfl⟩
    · exact State.groupOf_eq_some.mpr ⟨c, info, old, here, event⟩
    · cases here
  | startGroup comm c _ found closed =>
    refine .opened comm c rfl found closed rfl rfl fun i g opened => ?_
    rcases groupOf_of_modify opened rfl with ⟨_, old⟩ | ⟨mine, _, _, _, here, event⟩
    · exact .inl old
    · cases here
      exact .inr ⟨mine, event.symm⟩
  | endEmpty =>
    exact .same rfl State.marks_ncclGroupEnd fun i g opened => (groupOf_of_reset opened rfl).2
  | endGroup comm c g stream _ found here =>
    exact .recorded comm c g stream rfl found here rfl rfl
      fun i g opened => groupOf_of_reset opened rfl
  | endFailed =>
    exact .same rfl State.marks_ncclGroupEnd fun i g opened => groupOf_of_same opened rfl
  | postGroup comm kind peer tag stream c info _ found here =>
    refine .same rfl State.marks_ncclPost fun i g opened => ?_
    have between := groupOf_of_modify_same opened rfl
      fun c _ => by rw [CommunicatorImpl.groupInfo_enqueue]
    refine groupOf_of_modify_same between rfl fun other same => ?_
    cases found.symm.trans same
    rw [here]
    rfl
  | postSingle =>
    refine .same rfl (State.marks_ncclPost.trans (List.suffix_cons _ _)) fun i g opened => ?_
    exact groupOf_of_modify_same opened rfl fun c _ => by rw [CommunicatorImpl.groupInfo_enqueue]
  | scan =>
    refine .same rfl (List.suffix_refl _) fun i g opened => ?_
    exact groupOf_of_modify_same opened rfl fun c _ => by rw [CommunicatorImpl.groupInfo_setReqs]
  | scanFailed =>
    refine .same rfl (List.suffix_refl _) fun i g opened => ?_
    exact groupOf_of_modify_same opened rfl fun c _ => by rw [CommunicatorImpl.groupInfo_setReqs]
  | done =>
    refine .same rfl (List.suffix_refl _) fun i g opened => ?_
    exact groupOf_of_modify_same opened rfl fun c _ => by rw [CommunicatorImpl.groupInfo_setReqs]
  | _ => exact .same rfl (List.suffix_refl _) fun i g opened => groupOf_of_same opened rfl

theorem GroupStep.marks (groups : GroupStep s action t) : s.marks <:+ t.marks := by
  cases groups with
  | same _ longer => exact longer
  | opened _ _ _ _ _ _ marks => rw [marks]
  | recorded comm c g stream _ _ _ _ marks =>
    rw [marks]
    exact State.marks_ncclGroupEnd.trans (List.suffix_cons _ _)

theorem GroupStep.length_le (groups : GroupStep s action t) :
    s.groupEvents.length ≤ t.groupEvents.length := by
  cases groups with
  | same events => rw [events]
  | opened _ _ _ _ _ events => simp [events]
  | recorded _ _ _ _ _ _ _ events => simp [events]

/-- A request made inside a group has the event of a group that is open. -/
theorem group_of_effect (effect : Effect rank s action t) (mine : (t.heap op).req = .group g)
    (new : s.posts.length ≤ op) (known : op < t.posts.length) :
    op = s.posts.length ∧ t.groupEvents = s.groupEvents ∧ ∃ comm, s.groupOf comm = some g := by
  cases effect with
  | postGroup comm kind peer tag stream c info _ found here =>
    obtain rfl : op = s.posts.length := by
      simp only [State.postGroup, State.create_posts, List.length_append,
        List.length_singleton] at known
      exact Nat.le_antisymm (Nat.le_of_lt_succ known) new
    simp only [State.postGroup, State.create_heap, State.modifyComm_posts, State.ncclPost_posts,
      Function.update_self, NcclRequest.group.injEq] at mine
    exact ⟨rfl, rfl, comm, State.groupOf_eq_some.mpr ⟨c, info, found, here, mine⟩⟩
  | postSingle comm kind peer tag stream c =>
    obtain rfl : op = s.posts.length := by
      simp only [State.postSingle, State.create_posts, List.length_append,
        List.length_singleton] at known
      exact Nat.le_antisymm (Nat.le_of_lt_succ known) new
    simp [State.postSingle, State.create_heap] at mine
  | _ => exact absurd known (Nat.not_lt.mpr new)

namespace State

structure Grouped (s : State) : Prop extends s.Settled where
  posted : ∀ op g, op < s.posts.length → (s.heap op).req = .group g → g < s.groupEvents.length
  opened : ∀ i g, s.groupOf i = some g → g < s.groupEvents.length
  apart : ∀ i j g, s.groupOf i = some g → s.groupOf j = some g → i = j

theorem Grouped.initial : Grouped initial where
  toSettled := .initial
  posted _ _ known := by cases known
  opened _ _ here := by cases here
  apart _ _ _ here := by cases here

theorem Grouped.step (grouped : s.Grouped) (effect : Effect rank s action t) : t.Grouped := by
  have groups := groups_of_effect effect
  have longer := groups.length_le
  refine ⟨grouped.toSettled.step effect, fun op g known mine => ?_, fun i g here => ?_,
    fun i j g first second => ?_⟩
  · by_cases old : op < s.posts.length
    · rw [(requests_of_effect effect).req old] at mine
      exact Nat.lt_of_lt_of_le (grouped.posted op g old mine) longer
    · obtain ⟨_, _, comm, here⟩ := group_of_effect effect mine (Nat.not_lt.mp old) known
      exact Nat.lt_of_lt_of_le (grouped.opened comm g here) longer
  · cases groups with
    | same _ _ kept => exact Nat.lt_of_lt_of_le (grouped.opened i g (kept i g here)) longer
    | opened comm c _ _ _ events _ kept =>
      rcases kept i g here with old | ⟨_, rfl⟩
      · exact Nat.lt_of_lt_of_le (grouped.opened i g old) longer
      · simp [events]
    | recorded comm c other stream _ _ _ _ _ kept =>
      exact Nat.lt_of_lt_of_le (grouped.opened i g (kept i g here).2) longer
  · cases groups with
    | same _ _ kept => exact grouped.apart i j g (kept i g first) (kept j g second)
    | opened comm c _ _ _ _ _ kept =>
      -- the number of the new group is larger than those of all others
      have other {k : Nat} (old : s.groupOf k = some g) : g ≠ s.groupEvents.length :=
        Nat.ne_of_lt (grouped.opened k g old)
      rcases kept i g first with old | ⟨rfl, new⟩
      · rcases kept j g second with also | ⟨_, new⟩
        · exact grouped.apart i j g old also
        · exact absurd new (other old)
      · rcases kept j g second with old | ⟨rfl, _⟩
        · exact absurd new (other old)
        · rfl
    | recorded comm c other stream _ _ _ _ _ kept =>
      exact grouped.apart i j g (kept i g first).2 (kept j g second).2

end State

namespace State

def GroupRecorded (s : State) (g : Nat) : Prop :=
  ∃ stream, Mark.recorded (.group g) stream ∈ s.marks

/-- Until `end_group` has recorded it, the event of a group is not ready, no request of the
group reports ready, and none is called back. -/
structure GroupLaw (s : State) : Prop where
  event : ∀ g e, s.groupEvents[g]? = some e → ¬ s.GroupRecorded g → e.isReady s.cuda = some false
  request : ∀ op g, op < s.posts.length → (s.heap op).req = .group g → ¬ s.GroupRecorded g →
    s.isReady op = some false ∧ (s.heap op).ready = false ∧ op ∉ Event.calledOps s.history

/-- The event that `start_group` takes from the pool was never recorded. -/
def TakesFresh (s : State) : Action → Prop
  | .startGroup comm .ok =>
    (s.comms[comm]?.all fun c => c.isGroupActive || !s.nextEvent.recorded) = true
  | _ => True

instance (s : State) (action : Action) : Decidable (s.TakesFresh action) := by
  unfold TakesFresh
  split <;> infer_instance

theorem TakesFresh.recorded {c : CommunicatorImpl} (fresh : s.TakesFresh (.startGroup comm .ok))
    (found : s.comms[comm]? = some c) (closed : c.groupInfo = none) :
    s.nextEvent.recorded = false := by
  simpa [TakesFresh, found, CommunicatorImpl.isGroupActive, closed] using fresh

structure Honest (s : State) : Prop extends s.Grouped where
  flags : ∀ g e, s.groupEvents[g]? = some e → e.recorded = true → s.GroupRecorded g
  signals : ∀ op g, s.Reported op → (s.heap op).req = .group g → s.GroupRecorded g

theorem Honest.initial : Honest initial where
  toGrouped := .initial
  flags _ _ found := by cases found
  signals op g reported := by
    rcases reported with taken | called | marked
    · cases taken
    · cases called
    · cases marked

theorem Honest.of_isReady (honest : s.Honest) (ready : s.isReady op = some true)
    (mine : (s.heap op).req = .group g) : s.GroupRecorded g := by
  simp only [isReady, mine] at ready
  split at ready
  · exact honest.flags g _ ‹_› (CudaEvent.recorded_of_isReady ready)
  · cases ready

theorem Honest.step (honest : s.Honest) (fresh : s.TakesFresh action)
    (effect : Effect rank s action t) : t.Honest := by
  have requests := requests_of_effect effect
  have groups := groups_of_effect effect
  have kept {g : Nat} (old : s.GroupRecorded g) : t.GroupRecorded g :=
    old.imp fun _ member => groups.marks.subset member
  refine ⟨honest.toGrouped.step effect, fun g e found marked => ?_, fun op g reported mine => ?_⟩
  · cases groups with
    | same events =>
      rw [events] at found
      exact kept (honest.flags g e found marked)
    | opened comm c taken here closed events =>
      subst taken
      rw [events] at found
      rcases concat_cases found with ⟨_, old⟩ | ⟨_, rfl⟩
      · exact kept (honest.flags g e old marked)
      · rw [fresh.recorded here closed] at marked
        cases marked
    | recorded comm c other stream _ _ _ events marks =>
      rw [events] at found
      obtain ⟨before, old, ⟨rfl, _⟩ | ⟨_, rfl⟩⟩ := getElem?_modify_cases found
      · exact kept (honest.flags g e old marked)
      · exact ⟨stream, by simp [marks]⟩
  · obtain ⟨known, old⟩ := honest.reported_step effect reported
    rw [requests.req known] at mine
    exact kept (old.elim (fun old => honest.signals op g old mine)
      fun ready => honest.of_isReady ready mine)

theorem Honest.lawful (honest : s.Honest) : s.GroupLaw := by
  have waits {g : Nat} {e : CudaEvent} (found : s.groupEvents[g]? = some e)
      (unrecorded : ¬ s.GroupRecorded g) : e.isReady s.cuda = some false := by
    have unmarked : ¬ e.recorded = true := fun marked => unrecorded (honest.flags g e found marked)
    simp [CudaEvent.isReady, unmarked]
  refine ⟨fun g e found unrecorded => waits found unrecorded, fun op g known mine unrecorded => ?_⟩
  have silent : ¬ s.Reported op := fun reported => unrecorded (honest.signals op g reported mine)
  refine ⟨?_, ?_, fun called => silent (.inr (.inl called))⟩
  · have found := List.getElem?_eq_getElem (honest.posted op g known mine)
    simp only [isReady, mine, found]
    exact waits found unrecorded
  · exact Bool.eq_false_iff.mpr fun ready => silent (.inr (.inr ready))

end State

/-- In every run in which each `start_group` takes an event from the pool that was never
recorded, the law of the group's event holds in every state. -/
theorem group_event_lawful (rank : RankType)
    (reached : Reaches (step rank) State.TakesFresh State.initial s) : s.GroupLaw := by
  have honest : s.Honest := by
    refine reached.invariant State.Honest .initial ?_
    intro before action after honest fresh taken
    exact honest.step fresh (step_effect taken)
  exact honest.lawful

/-- A send inside a group that is still open, after a send outside. -/
theorem group_event_lawful_open :
    ∃ s, Reaches (step 0) State.TakesFresh State.initial s ∧
      (s.heap 1).req = .group 0 ∧ s.groupOf 0 = some 0 ∧ s.GroupLaw := by
  obtain ⟨s, reached, mine, opened⟩ := exists_of_run (step 0) State.TakesFresh State.initial
    [.getCommunicator, .post 0 .send 1 7 0 .ok, .startGroup 0 .ok, .post 0 .recv 1 7 0 .ok]
    (fun s => (s.heap 1).req = .group 0 ∧ s.groupOf 0 = some 0) (by decide +kernel)
  exact ⟨s, reached, mine, opened, group_event_lawful 0 reached⟩

/-- The event of a completed send goes back to the pool and is taken by the next group.  A
shared receive of this group is called back by `context_impl::progress` while the group is
open. -/
theorem recycled_event_ready_early :
    ∃ s, Reaches (step 0) (fun _ _ => True) State.initial s ∧ s.groupOf 0 = some 0 ∧
      (s.heap 1).req = .group 0 ∧ ¬ s.GroupRecorded 0 ∧ s.isReady 1 = some true ∧
      (s.heap 1).ready = true ∧ 1 ∈ Event.calledOps s.history ∧ ¬ s.GroupLaw := by
  obtain ⟨s, reached, opened, mine, known, marks, ready, marked, called⟩ := exists_of_run (step 0)
      (fun _ _ => True) State.initial
    [.getCommunicator, .post 0 .send 1 7 0 .ok, .fire 127, .progress 0, .advance, .advance,
      .callbackReturns, .advance, .advance, .advance, .drop 0, .startGroup 0 .ok,
      .post 0 .sharedRecv 1 7 0 .ok, .contextProgress, .advance, .callbackReturns]
    (fun s => s.groupOf 0 = some 0 ∧ (s.heap 1).req = .group 0 ∧ 1 < s.posts.length ∧
      s.marks = [.recorded (.request 0) 0, .submitted 0] ∧ s.isReady 1 = some true ∧
      (s.heap 1).ready = true ∧ 1 ∈ Event.calledOps s.history) (by decide +kernel)
  have unrecorded : ¬ s.GroupRecorded 0 := by simp [State.GroupRecorded, marks]
  exact ⟨s, reached, opened, mine, unrecorded, ready, marked, called,
    fun law => (law.request 1 0 known mine unrecorded).2.2 called⟩

end Oomph.Nccl
