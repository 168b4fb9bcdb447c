import Oomph.Mpi.Tracking

namespace Oomph.Mpi

open Machine State

def NoCancel (_ : State) : Action → Prop
  | .cancel _ _ => False
  | .cancelShared _ _ => False
  | _ => True

instance (s : State) (action : Action) : Decidable (NoCancel s action) :=
  match action with
  | .cancel _ _ => isFalse id
  | .cancelShared _ _ => isFalse id
  | .post _ _ _ _ => isTrue trivial
  | .progress => isTrue trivial
  | .contextProgress => isTrue trivial
  | .callbackReturns => isTrue trivial
  | .testsome _ => isTrue trivial
  | .test _ => isTrue trivial
  | .visit => isTrue trivial

variable {limit : Nat} {s t : State} {action : Action} {e : Nat} {kind : Kind}

theorem NoCancel.sane (plain : NoCancel s action) : Sane s action := by
  cases action with
  | cancel => exact plain.elim
  | cancelShared => exact plain.elim
  | _ => trivial

structure State.Uncanceled (s : State) : Prop where
  transport : ∀ op, s.transport op ≠ .waited
  history : Event.canceledOps s.history = 0

private theorem transport_update {transport : Nat → Transport} {x : Nat} {answer : Transport}
    (other : answer ≠ .waited) (before : ∀ op, transport op ≠ .waited) (op : Nat) :
    Function.update transport x answer op ≠ .waited := by
  by_cases same : op = x
  · subst op
    rw [Function.update_self]
    exact other
  · rw [Function.update_of_ne same]
    exact before op

theorem State.Uncanceled.effect (uncanceled : s.Uncanceled) (plain : NoCancel s action)
    (effect : Effect limit s action t) : t.Uncanceled := by
  obtain ⟨transport, history⟩ := uncanceled
  cases effect with
  | create kind rank tag =>
    cases kind <;> exact ⟨transport_update nofun transport, history⟩
  | runInplace kind rank tag =>
    cases kind <;> exact ⟨transport_update nofun transport, history⟩
  | compact stage next side rest positions =>
    refine ⟨fun op => ?_, by cases side <;> exact history⟩
    change (if op ∈ reportedOps (s.handles side) positions then Transport.reported
      else s.transport op) ≠ .waited
    split
    · exact nofun
    · exact transport op
  | popShared stage position e rest =>
    refine ⟨fun op => ?_, history⟩
    cases handle : (s.heap e).req with
    | none => simpa [startShared, releaseSelfRef, callCb, handle] using transport op
    | some x =>
      have updated := transport_update (Transport.noConfusion : Transport.reported ≠ .waited) transport op (x := x)
      simpa [startShared, releaseSelfRef, callCb, handle] using updated
  | testFailed stage side => cases side <;> exact ⟨transport, history⟩
  | testEmpty stage next side => cases side <;> exact ⟨transport, history⟩
  | loopEnd side => cases side <;> exact ⟨transport, history⟩
  | cancelFailed => exact plain.elim
  | cancelRecv => exact plain.elim
  | cancelSharedFailed => exact plain.elim
  | cancelShared => exact plain.elim
  | cancelSharedThrew => exact plain.elim
  | _ => exact ⟨transport, history⟩

theorem State.Uncanceled.of_reaches (reached : Reaches (step limit) NoCancel State.initial s) :
    s.Uncanceled :=
  Reaches.invariant Uncanceled ⟨fun _ => by simp [State.initial], rfl⟩
    (fun _ _ _ uncanceled plain taken => uncanceled.effect plain (step_effect taken)) reached

namespace State

def visiting (s : State) : Multiset Nat :=
  total (fun frame => match frame with
    | .ready _ _ _ (some e) => {e}
    | _ => 0) s.stack

def HasState (s : State) (e : Nat) : Prop :=
  s.requestKind e = some .send ∨ s.requestKind e = some .recv

instance (s : State) (e : Nat) : Decidable (s.HasState e) :=
  inferInstanceAs (Decidable (_ ∨ _))

/-- What is in the queues, still unvisited or being visited. -/
def tracked (s : State) : Multiset Nat :=
  s.sends.queue + s.recvs.queue + s.unvisited + s.visiting

theorem mem_visiting : e ∈ s.visiting ↔
    ∃ side position finish, Frame.ready side position finish (some e) ∈ s.stack := by
  unfold visiting
  rw [mem_total]
  constructor
  · intro found
    obtain ⟨frame, member, runs⟩ := found
    cases frame with
    | ready side position finish running =>
      cases running with
      | none => exact absurd runs (Multiset.notMem_zero e)
      | some x =>
        cases Multiset.mem_singleton.mp runs
        exact ⟨side, position, finish, member⟩
    | _ => exact absurd runs (Multiset.notMem_zero e)
  · intro found
    obtain ⟨side, position, finish, member⟩ := found
    exact ⟨_, member, Multiset.mem_singleton_self e⟩

theorem visiting_le : s.visiting ≤ s.running := by
  unfold visiting running
  induction s.stack with
  | nil => exact le_refl _
  | cons frame rest ih =>
    rw [total_cons, total_cons]
    refine add_le_add ?_ ih
    cases frame with
    | ready side position finish running => cases running <;> exact le_refl _
    | _ => exact Multiset.zero_le _

theorem tracked_le : s.tracked ≤ s.waiting + s.running := by
  have visiting := visiting_le (s := s)
  have queues : s.sends.queue + s.recvs.queue + s.unvisited ≤ s.waiting := by
    unfold waiting queued
    rw [add_right_comm _ (s.shared.queue : Multiset Nat)]
    exact Multiset.le_add_right _ _
  exact add_le_add queues visiting

theorem Sound.hasState_of_tracked (sound : s.Sound) (member : e ∈ s.tracked) : s.HasState e := by
  have of_side : ∀ side : Side, s.requestKind e = some side.kind → s.HasState e := by
    intro side known
    cases side
    · exact .inl known
    · exact .inr known
  rcases Multiset.mem_add.mp member with waits | visits
  · rcases Multiset.mem_add.mp waits with queued | unvisited
    · rcases Multiset.mem_add.mp queued with sends | recvs
      · exact of_side .sends (sound.typed.queued .sends e sends)
      · exact of_side .recvs (sound.typed.queued .recvs e recvs)
    · obtain ⟨side, ready⟩ := Sound.ready_of_unvisited unvisited
      exact of_side side (sound.typed.readied side e ready)
  · obtain ⟨side, position, finish, frame⟩ := mem_visiting.mp visits
    have looping := sound.loops.intact side position finish (some e) frame
    exact of_side side (sound.typed.readied side e
      (List.mem_of_getElem? (looping.visiting e rfl)))

theorem Sound.tracked_of_hasState (sound : s.Sound) (known : s.HasState e)
    (member : e ∈ s.waiting + s.running) : e ∈ s.tracked := by
  have notShared : s.requestKind e ≠ some .sharedRecv := by
    rcases known with known | known <;> rw [known] <;> exact nofun
  have notInplace : s.requestKind e ≠ none := by
    rcases known with known | known <;> rw [known] <;> exact nofun
  rcases Multiset.mem_add.mp member with waits | runs
  · refine Multiset.mem_add.mpr (.inl (Multiset.mem_add.mpr ?_))
    rcases Multiset.mem_add.mp waits with queued | unvisited
    · rcases Multiset.mem_add.mp queued with both | shared
      · exact .inl both
      · exact absurd (sound.typed.sharedQueued e shared) notShared
    · exact .inr unvisited
  · refine Multiset.mem_add.mpr (.inr (mem_visiting.mpr ?_))
    obtain ⟨frame, found, runs⟩ := mem_total.mp runs
    cases frame with
    | ready side position finish running =>
      cases running with
      | none => exact absurd runs (Multiset.notMem_zero e)
      | some x =>
        cases Multiset.mem_singleton.mp runs
        exact ⟨side, position, finish, found⟩
    | progress stage => exact absurd runs (Multiset.notMem_zero e)
    | shared x =>
      cases Multiset.mem_singleton.mp runs
      exact absurd (sound.typed.sharedRuns e found) notShared
    | inplace x =>
      cases Multiset.mem_singleton.mp runs
      exact absurd (sound.typed.inplaceRuns e (.inl found)).2 notInplace
    | sharedInplace x =>
      cases Multiset.mem_singleton.mp runs
      exact absurd (sound.typed.inplaceRuns e (.inr found)).2 notInplace

/-- Without cancels the tracked requests are those not called back, each once. -/
theorem Tracked.tracked_eq (tracked : s.Tracked) (uncanceled : s.Uncanceled) :
    s.tracked = (Multiset.range s.posts.length).filter fun e =>
      s.HasState e ∧ e ∉ Event.returnedOps s.history := by
  have outstanding : ∀ x, x ∈ s.waiting + s.running ↔
      x < s.posts.length ∧ x ∉ Event.returnedOps s.history ∧ x ∉ Event.canceledOps s.history :=
    fun x => tracked.consistent.mem_outstanding
  have distinct := Multiset.nodup_of_le tracked_le tracked.sound.distinct
  apply (Multiset.Nodup.ext distinct ((Multiset.nodup_range _).filter _)).mpr
  intro x
  rw [Multiset.mem_filter, Multiset.mem_range]
  constructor
  · intro member
    obtain ⟨posted, unreturned, -⟩ := (outstanding x).mp (Multiset.mem_of_le tracked_le member)
    exact ⟨posted, tracked.sound.hasState_of_tracked member, unreturned⟩
  · intro member
    obtain ⟨posted, known, unreturned⟩ := member
    apply tracked.sound.tracked_of_hasState known
    exact (outstanding x).mpr ⟨posted, unreturned, by simp [uncanceled.history]⟩

theorem Tracked.scheduled_eq (tracked : s.Tracked) (uncanceled : s.Uncanceled) (kind : Kind) :
    s.scheduled (kind.counter 0) = (((Finset.range s.posts.length).filter fun e =>
      s.requestKind e = some kind ∧ e ∉ Event.returnedOps s.history).card : Nat) := by
  have counted := tracked.consistent.outstanding_eq_card (kind.counter 0)
  have same : ∀ e, Books.keyOf Post.counter s.posts e = some (kind.counter 0) ↔
      s.requestKind e = some kind := by
    intro e
    cases known : s.requestKind e with
    | none => simp [keyOf_unknown known]
    | some other =>
      rw [keyOf_known tracked.sound known]
      cases kind <;> cases other <;> simp [Kind.counter]
  refine counted.trans ?_
  congr 2
  apply Finset.filter_congr
  intro e _
  simp [books, same, uncanceled.history]

end State

/-- In every state of every run of posts and progress calls, from any depth of callbacks:
callbacks run once, as posted and after MPI reported the operation; the request states
not called back are exactly the tracked ones, which own themselves while they wait and
know their position while they are queued; and the counters count them. -/
theorem operations_accounted_for (limit : Nat) {s : State}
    (reached : Reaches (step limit) NoCancel State.initial s) :
    ((Event.calledOps s.history).Nodup ∧
      ∀ op rank tag, Event.called op rank tag ∈ s.history →
        (∃ post, s.posts[op]? = some post ∧ post.rank = rank ∧ post.tag = tag) ∧
          s.transport op = .reported) ∧
    (s.sends.queue + s.recvs.queue + s.unvisited + s.visiting =
        (Multiset.range s.posts.length).filter (fun e =>
          s.HasState e ∧ e ∉ Event.returnedOps s.history) ∧
      (∀ e, s.HasState e → ((s.heap e).ready = true ↔ e ∈ Event.returnedOps s.history)) ∧
      (∀ e ∈ s.sends.queue + s.recvs.queue + s.unvisited, (s.heap e).selfPtr = true) ∧
      ∀ side i e, (s.reqs side).queue[i]? = some e → (s.heap e).index = i) ∧
    (s.scheduled (.sends 0) = (((Finset.range s.posts.length).filter fun e =>
        s.requestKind e = some .send ∧ e ∉ Event.returnedOps s.history).card : Nat) ∧
      s.scheduled (.recvs 0) = (((Finset.range s.posts.length).filter fun e =>
        s.requestKind e = some .recv ∧ e ∉ Event.returnedOps s.history).card : Nat)) := by
  have tracked := Tracked.of_reaches (reached.mono fun _ _ => NoCancel.sane)
  have uncanceled := Uncanceled.of_reaches reached
  refine ⟨⟨tracked.consistent.called_nodup, fun op rank tag member => ?_⟩,
    ⟨tracked.tracked_eq uncanceled, fun e known => ?_, fun e member => ?_, tracked.sound.indexed⟩,
    tracked.scheduled_eq uncanceled .send, tracked.scheduled_eq uncanceled .recv⟩
  · refine ⟨tracked.posted op rank tag member, ?_⟩
    rcases tracked.told.called op rank tag member with reported | ⟨-, waited⟩
    · exact reported
    · exact absurd waited (uncanceled.transport op)
  · rcases known with known | known <;>
      simpa [uncanceled.history] using tracked.done e _ known
  · have waits : e ∈ s.waiting := by
      unfold waiting queued
      rw [add_right_comm _ (s.shared.queue : Multiset Nat)]
      exact Multiset.mem_add.mpr (.inl member)
    exact congrArg Prod.snd (tracked.fresh e waits)

/-- Two receives and a send are posted; the send has completed and its callback is running
while the receives are queued. -/
theorem operations_accounted_for_in_callback :
    ∃ s, Reaches (step 20) NoCancel State.initial s ∧ s.visiting = {2} ∧
      s.recvs.queue = [0, 1] ∧ (Event.calledOps s.history).Nodup := by
  obtain ⟨s, reached, visiting, queue⟩ := exists_of_run (step 20) NoCancel State.initial
    [.post .recv 1 7 .incomplete, .post .recv 1 8 .incomplete, .post .send 1 7 .incomplete,
      .progress, .testsome (.done [0]), .visit]
    (fun s => s.visiting = {2} ∧ s.recvs.queue = [0, 1]) (by decide)
  exact ⟨s, reached, visiting, queue, (operations_accounted_for 20 reached).1.1⟩

end Oomph.Mpi
