import Oomph.Nccl.GroupEvent

namespace Oomph.Nccl

open Machine

/-! Each communicator keeps track of its own group only, but NCCL submits the operations of a
thread when the last open group ends.  An event that is recorded while another communicator
still has a group open is recorded before the submission.
-/

variable {rank : RankType} {s t : State} {action : Action} {comm op g : Nat}

def NcclRequest.holder (op : Nat) : NcclRequest → Holder
  | .cached _ => .request op
  | .group g => .group g

namespace State

/-- The event that the request waits for was recorded after NCCL had submitted the operation. -/
def RecordedAfter (s : State) (op : Nat) : Prop :=
  ∃ stream newer older, s.marks =
    newer ++ .recorded ((s.heap op).req.holder op) stream :: older ∧ .submitted op ∈ older

/-- A request that is ready in any sense stands for an operation that was submitted, and its
event was recorded after that. -/
def SubmissionLaw (s : State) : Prop :=
  ∀ op, op < s.posts.length → s.isReady op = some true ∨ (s.heap op).ready = true ∨
    op ∈ Event.calledOps s.history → s.RecordedAfter op

/-- An event is recorded only when NCCL has no group open, and `start_group` takes an event
that was never recorded. -/
def Unnested (s : State) : Action → Prop
  | .startGroup comm answer => s.TakesFresh (.startGroup comm answer)
  | .post comm _ _ _ _ .ok => (s.comms[comm]?.all fun c => c.isGroupActive || s.groupDepth = 0) = true
  | .endGroup comm .ok => (s.comms[comm]?.all fun c =>
    c.groupInfo.all fun info => info.lastStream.isNone || s.groupDepth = 1) = true
  | _ => True

instance (s : State) (action : Action) : Decidable (s.Unnested action) := by
  unfold Unnested
  split <;> infer_instance

theorem Unnested.takesFresh (unnested : s.Unnested action) : s.TakesFresh action := by
  cases action with
  | startGroup => exact unnested
  | _ => trivial

end State

theorem placed_of_effect (effect : Effect rank s action t)
    (placed : op ∈ s.queued ∨ .submitted op ∈ s.marks) :
    op ∈ t.queued ∨ .submitted op ∈ t.marks := by
  have ends : op ∈ s.ncclGroupEnd.queued ∨ .submitted op ∈ s.ncclGroupEnd.marks := by
    simp only [State.ncclGroupEnd_queued, State.ncclGroupEnd_marks]
    split
    · rcases placed with waits | done
      · exact .inr (by simp [waits])
      · exact .inr (by simp [done])
    · exact placed
  have posts : op ∈ (s.ncclPost s.posts.length).queued ∨
      .submitted op ∈ (s.ncclPost s.posts.length).marks := by
    simp only [State.ncclPost_queued, State.ncclPost_marks]
    split
    · exact placed.imp_right (List.mem_cons_of_mem _)
    · exact placed.imp_left (List.mem_append_left _)
  cases effect with
  | endEmpty => exact ends
  | endGroup => exact ends.imp_right (List.mem_cons_of_mem _)
  | endFailed => exact ends
  | postGroup => exact posts
  | postSingle => exact posts.imp_right (List.mem_cons_of_mem _)
  | _ => exact placed

/-- A new operation is queued or submitted, and the event of a single request is recorded after
its submission. -/
theorem made_of_effect (effect : Effect rank s action t) (unnested : s.Unnested action)
    (new : s.posts.length ≤ op) (known : op < t.posts.length) :
    (op ∈ t.queued ∨ .submitted op ∈ t.marks) ∧
      ((∃ e, (t.heap op).req = .cached e) → t.RecordedAfter op) := by
  have last (longer : t.posts.length = s.posts.length + 1) : op = s.posts.length := by omega
  cases effect with
  | postGroup comm kind peer tag stream c info =>
    obtain rfl := last (by simp [State.postGroup])
    refine ⟨?_, by simp [State.postGroup]⟩
    simp only [State.postGroup, State.create_queued, State.create_marks,
      State.modifyComm_queued, State.modifyComm_marks, State.ncclPost_queued,
      State.ncclPost_marks]
    split <;> simp
  | postSingle comm kind peer tag stream c _ found closed =>
    obtain rfl := last (by simp [State.postSingle])
    have outside : s.groupDepth = 0 := by
      simpa [State.Unnested, found, CommunicatorImpl.isGroupActive, closed] using unnested
    have marks : (s.postSingle comm kind peer tag stream).marks =
        .recorded (.request s.posts.length) stream :: .submitted s.posts.length :: s.marks := by
      simp [State.postSingle, outside]
    refine ⟨.inr (by simp [marks]), fun _ => ⟨stream, [], .submitted s.posts.length :: s.marks, ?_,
      List.mem_cons_self⟩⟩
    rw [marks]
    simp [State.postSingle, NcclRequest.holder]
  | _ => exact absurd known (Nat.not_lt.mpr new)

namespace State

theorem RecordedAfter.step (after : s.RecordedAfter op) (effect : Effect rank s action t)
    (known : op < s.posts.length) : t.RecordedAfter op := by
  obtain ⟨stream, newer, older, marks, submitted⟩ := after
  obtain ⟨front, longer⟩ := (groups_of_effect effect).marks
  refine ⟨stream, front ++ newer, older, ?_, submitted⟩
  rw [(requests_of_effect effect).req known, ← longer, marks, List.append_assoc]

structure Ordered (s : State) : Prop extends s.Honest where
  placed : ∀ op, op < s.posts.length → op ∈ s.queued ∨ .submitted op ∈ s.marks
  single : ∀ op e, op < s.posts.length → (s.heap op).req = .cached e → s.RecordedAfter op
  group : ∀ op g e, op < s.posts.length → (s.heap op).req = .group g →
    s.groupEvents[g]? = some e → e.recorded = true → s.RecordedAfter op
  unrecorded : ∀ i g e, s.groupOf i = some g → s.groupEvents[g]? = some e → e.recorded = false
  after : ∀ op, s.Reported op → s.RecordedAfter op

theorem Ordered.initial : Ordered initial where
  toHonest := .initial
  placed _ known := by cases known
  single _ _ known := by cases known
  group _ _ _ known := by cases known
  unrecorded _ _ _ here := by cases here
  after op reported := by
    rcases reported with taken | called | marked
    · cases taken
    · cases called
    · cases marked

theorem Ordered.of_isReady (ordered : s.Ordered) (known : op < s.posts.length)
    (ready : s.isReady op = some true) : s.RecordedAfter op := by
  unfold isReady at ready
  split at ready
  · exact ordered.single op _ known ‹_›
  · split at ready
    · exact ordered.group op _ _ known ‹_› ‹_› (CudaEvent.recorded_of_isReady ready)
    · cases ready

/-- The event of a group that `end_group` records, when no other group is open. -/
theorem Ordered.group_step (ordered : s.Ordered) (unnested : s.Unnested action)
    (effect : Effect rank s action t) {e : CudaEvent} (known : op < s.posts.length)
    (mine : (s.heap op).req = .group g) (found : t.groupEvents[g]? = some e)
    (recorded : e.recorded = true) : t.RecordedAfter op := by
  have same := (requests_of_effect effect).req known
  cases groups_of_effect effect with
  | same events =>
    rw [events] at found
    exact (ordered.group op g e known mine found recorded).step effect known
  | opened comm c _ _ _ events =>
    have inside := ordered.posted op g known mine
    rw [events, List.getElem?_append_left inside] at found
    exact (ordered.group op g e known mine found recorded).step effect known
  | recorded comm c other stream taken here opened events marks =>
    rw [events] at found
    obtain ⟨before, old, ⟨rfl, _⟩ | ⟨_, rfl⟩⟩ := getElem?_modify_cases found
    · exact (ordered.group op g e known mine old recorded).step effect known
    · subst taken
      have last : s.groupDepth = 1 := by
        simpa [Unnested, here, opened] using unnested
      refine ⟨stream, [], _, by rw [marks, same, mine]; rfl, ?_⟩
      rw [ncclGroupEnd_marks, if_pos last]
      rcases ordered.placed op known with waits | done
      · simp [waits]
      · simp [done]

theorem Ordered.step (ordered : s.Ordered) (unnested : s.Unnested action)
    (effect : Effect rank s action t) : t.Ordered := by
  have requests := requests_of_effect effect
  refine ⟨ordered.toHonest.step unnested.takesFresh effect, fun op known => ?_,
    fun op e known alone => ?_, fun op g e known mine found recorded => ?_,
    fun i g e here found => ?_, fun op reported => ?_⟩
  · by_cases old : op < s.posts.length
    · exact placed_of_effect effect (ordered.placed op old)
    · exact (made_of_effect effect unnested (Nat.not_lt.mp old) known).1
  · by_cases old : op < s.posts.length
    · rw [requests.req old] at alone
      exact (ordered.single op e old alone).step effect old
    · exact (made_of_effect effect unnested (Nat.not_lt.mp old) known).2 ⟨e, alone⟩
  · by_cases old : op < s.posts.length
    · rw [requests.req old] at mine
      exact ordered.group_step unnested effect old mine found recorded
    · -- the group of a new request is open, so its event is not recorded
      obtain ⟨_, events, comm, here⟩ := group_of_effect effect mine (Nat.not_lt.mp old) known
      rw [events] at found
      rw [ordered.unrecorded comm g e here found] at recorded
      cases recorded
  · cases groups_of_effect effect with
    | same events _ kept =>
      rw [events] at found
      exact ordered.unrecorded i g e (kept i g here) found
    | opened comm c taken present closed events _ kept =>
      subst taken
      rw [events] at found
      rcases kept i g here with old | ⟨_, rfl⟩
      · rw [List.getElem?_append_left (ordered.opened i g old)] at found
        exact ordered.unrecorded i g e old found
      · simp only [List.getElem?_concat_length, Option.some.injEq] at found
        rw [← found]
        exact unnested.takesFresh.recorded present closed
    | recorded comm c other stream _ present opened events _ kept =>
      -- another communicator has another group
      obtain ⟨apart, old⟩ := kept i g here
      rw [events] at found
      obtain ⟨before, same, ⟨rfl, _⟩ | ⟨_, rfl⟩⟩ := getElem?_modify_cases found
      · exact ordered.unrecorded i g e old same
      · have mine := groupOf_eq_some.mpr ⟨c, _, present, opened, rfl⟩
        exact absurd (ordered.apart i comm g old mine) apart
  · obtain ⟨known, old | ready⟩ := ordered.reported_step effect reported
    · exact (ordered.after op old).step effect known
    · exact (ordered.of_isReady known ready).step effect known

end State

/-- In every run in which events are recorded only while NCCL has no group open, and groups get
events that were never recorded, requests become ready after their submission only. -/
theorem ready_after_submission (rank : RankType)
    (reached : Reaches (step rank) State.Unnested State.initial s) : s.SubmissionLaw := by
  have ordered : s.Ordered := by
    refine reached.invariant State.Ordered .initial ?_
    intro before action after ordered unnested taken
    exact ordered.step unnested (step_effect taken)
  intro op known reported
  rcases reported with ready | marked | called
  · exact ordered.of_isReady known ready
  · exact ordered.after op (.inr (.inr marked))
  · exact ordered.after op (.inr (.inl called))

/-- Two communicators use groups one after the other, and their requests become ready. -/
theorem ready_after_submission_two :
    ∃ s, Reaches (step 0) State.Unnested State.initial s ∧ s.isReady 0 = some true ∧
      (s.heap 1).ready = true ∧ s.SubmissionLaw := by
  obtain ⟨s, reached, ready, marked⟩ := exists_of_run (step 0) State.Unnested State.initial
    [.getCommunicator, .getCommunicator, .startGroup 0 .ok, .post 0 .send 1 7 0 .ok,
      .endGroup 0 .ok, .fire 127, .startGroup 1 .ok, .post 1 .recv 1 7 0 .ok, .endGroup 1 .ok,
      .fire 126, .progress 1, .advance, .advance, .advance, .callbackReturns]
    (fun s => s.isReady 0 = some true ∧ (s.heap 1).ready = true) (by decide +kernel)
  exact ⟨s, reached, ready, marked, ready_after_submission 0 reached⟩

/-- A communicator ends its group while another one has a group open.  NCCL still has the send
queued, but its event is recorded and fires, and the send is called back. -/
theorem nested_group_ready_early :
    ∃ s, Reaches (step 0) State.TakesFresh State.initial s ∧ s.groupOf 0 = some 0 ∧
      s.queued = [0] ∧ s.isReady 0 = some true ∧ (s.heap 0).ready = true ∧
      0 ∈ Event.calledOps s.history ∧ ¬ s.SubmissionLaw := by
  obtain ⟨s, reached, opened, queued, ready, marked, called, known, waits⟩ := exists_of_run (step 0)
      State.TakesFresh State.initial
    [.getCommunicator, .getCommunicator, .startGroup 0 .ok, .startGroup 1 .ok,
      .post 1 .send 1 7 0 .ok, .endGroup 1 .ok, .fire 126, .progress 1, .advance, .advance,
      .callbackReturns]
    (fun s => s.groupOf 0 = some 0 ∧ s.queued = [0] ∧ s.isReady 0 = some true ∧
      (s.heap 0).ready = true ∧ 0 ∈ Event.calledOps s.history ∧ 0 < s.posts.length ∧
      Mark.submitted 0 ∉ s.marks) (by decide +kernel)
  refine ⟨s, reached, opened, queued, ready, marked, called, fun law => waits ?_⟩
  obtain ⟨stream, newer, older, marks, submitted⟩ := law 0 known (.inl ready)
  rw [marks]
  exact List.mem_append_right _ (List.mem_cons_of_mem _ submitted)

end Oomph.Nccl
