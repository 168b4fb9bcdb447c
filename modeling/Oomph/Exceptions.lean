import Oomph.Mpi.Exceptions
import Oomph.Nccl.Places

namespace Oomph.Nccl

open Machine

inductive QueueThrows (key : Nat × Side) (s : State) : Action → Prop
  | query (scanned : Scan) (rest : List Frame) : s.stack = .queue key.1 key.2 :: rest →
      (s.reqsAt key).inProgress = false →
      scan s.isReady (s.reqsAt key).queue = .error scanned → QueueThrows key s .advance
  | callback (op : Nat) (waiting : List Nat) (rest : List Frame) :
      s.stack = .callback key.1 key.2 op waiting :: rest → QueueThrows key s .callbackThrows

/-- The queue can go on: it is not in progress, and each of its requests that was not called back
is in it once. -/
structure State.Recovered (s : State) (key : Nat × Side) : Prop where
  idle : (s.reqsAt key).inProgress = false
  tracked : ∀ op, requestOf s.posts op = some (key.1, key.2.kind) →
    op ∉ Event.calledOps s.history → (s.reqsAt key).queue.count op = 1

theorem QueueThrows.marked {rank : RankType} {s t : State} {key : Nat × Side} {action : Action}
    (throws : QueueThrows key s action) (looping : s.Looping) (taken : step rank s action = some t) :
    (t.reqsAt key).inProgress = true := by
  cases throws with
  | query scanned rest stack idle failed =>
    cases found : s.comms[key.1]? with
    | none => simp [step, State.advance, stack, State.progressQueue, found] at taken
    | some c =>
      have here := reqsAt_of_found found key.2
      rw [here] at idle failed
      have queued : (c.reqs key.2).queue ≠ [] := by
        intro empty
        rw [empty] at failed
        cases failed
      simp only [step, State.advance, stack, State.progressQueue, found, idle, queued, failed,
        Bool.false_eq_true, if_false, Option.some.injEq] at taken
      subst t
      rw [reqsAt_setReqs found rfl, Function.update_self]
  | callback op waiting rest stack =>
    have same : t.reqsAt = s.reqsAt := by
      simp only [step, State.throwCallback, stack, Option.some.injEq] at taken
      subst t
      rfl
    rw [same]
    refine looping.marked key ?_
    simp [State.loops, stack, Frame.loop]

end Oomph.Nccl

namespace Oomph

open Machine

/-- Whenever `progress` of a queue is left by an exception, the queue stays marked in progress and
cannot go on. -/
theorem queue_not_recovered (limit : Nat) (rank : RankType) :
    (∀ s t side move, Leads (Mpi.stepThrowing limit) Mpi.State.initial s →
      Mpi.QueueThrows side s move → Mpi.stepThrowing limit s move = some t →
      ¬ t.Recovered side) ∧
    ∀ s t key action, Leads (Nccl.step rank) Nccl.State.initial s →
      Nccl.QueueThrows key s action → Nccl.step rank s action = some t → ¬ t.Recovered key := by
  constructor
  · intro s t side move reached throws taken recovered
    have marked := throws.marked (Mpi.Loops.of_throwing reached) taken
    rw [recovered.idle] at marked
    cases marked
  · intro s t key action reached throws taken recovered
    have marked := throws.marked (Nccl.State.Placed.of_reaches reached).looping taken
    rw [recovered.idle] at marked
    cases marked

/-- `MPI_Testsome` fails, and the query of an event fails. -/
theorem queue_not_recovered_reached :
    (∃ s t, Leads (Mpi.stepThrowing 0) Mpi.State.initial s ∧
      Mpi.QueueThrows .sends s (.act (.testsome .failed)) ∧
      Mpi.stepThrowing 0 s (.act (.testsome .failed)) = some t ∧ ¬ t.Recovered .sends) ∧
    ∃ s t, Leads (Nccl.step 0) Nccl.State.initial s ∧ Nccl.QueueThrows (0, .sends) s .advance ∧
      Nccl.step 0 s .advance = some t ∧ ¬ t.Recovered (0, .sends) := by
  constructor
  · obtain ⟨s, t, -, reached, taken, -, stack, idle, queued⟩ := exists_call_of_run
      (Mpi.stepThrowing 0) (fun _ _ => True) .initial
      [.act (.post .send 1 7 .incomplete), .act .progress]
      (.act (.testsome .failed)) (fun _ _ _ => True) []
      (fun s _ => s.stack = [.progress .sends] ∧ (s.reqs .sends).inProgress = false ∧
        (s.reqs .sends).queue ≠ []) (by decide +kernel)
    have throws : Mpi.QueueThrows .sends s (.act (.testsome .failed)) :=
      .testsome [] stack idle queued
    exact ⟨s, t, reached, throws, taken, (queue_not_recovered 0 0).1 s t .sends _ reached throws taken⟩
  · obtain ⟨s, t, -, reached, taken, -, stack, idle, failed⟩ := exists_call_of_run
      (Nccl.step 0) (fun _ _ => True) .initial
      [.getCommunicator, .post 0 .send 1 7 0 .ok, .fail 127, .progress 0]
      .advance (fun _ _ _ => True) []
      (fun s _ => s.stack = [.queue 0 .sends] ∧ (s.reqsAt (0, .sends)).inProgress = false ∧
        Nccl.scan s.isReady (s.reqsAt (0, .sends)).queue = .error ⟨[0], [], 0⟩) (by decide +kernel)
    have throws : Nccl.QueueThrows (0, .sends) s .advance := .query _ [] stack idle failed
    exact ⟨s, t, reached, throws, taken,
      (queue_not_recovered 0 0).2 s t (0, .sends) _ reached throws taken⟩

/-- Two sends are complete and the callback of the first throws: the second is in no queue and was
not called back, and the queue stays marked.  With NCCL, of three sends the first is complete, the
second is not, and the query of the third throws: the first is gone and the second is queued
twice. -/
theorem exception_loses_request :
    (∃ s t, Leads (Mpi.stepThrowing 0) Mpi.State.initial s ∧
      Mpi.stepThrowing 0 s .callbackThrows = some t ∧ t.stack = [] ∧ t.requestKind 1 = some .send ∧
      Event.calledOps t.history = {0} ∧ t.sends.queue = [] ∧ t.sends.inProgress = true ∧
      ¬ t.Recovered .sends) ∧
    ∃ s t, Leads (Nccl.step 0) Nccl.State.initial s ∧ Nccl.step 0 s .advance = some t ∧
      t.stack = [] ∧ Event.calledOps t.history = 0 ∧
      t.reqsAt (0, .sends) = ⟨[1, 1, 2], true⟩ ∧ ¬ t.Recovered (0, .sends) := by
  constructor
  · have ran : ((run (Mpi.stepThrowing 0) (fun _ _ => True) .initial
        [.act (.post .send 1 7 .incomplete), .act (.post .send 1 8 .incomplete), .act .progress,
          .act (.testsome (.done [0, 1])), .act .visit]).bind fun s =>
        (Mpi.stepThrowing 0 s .callbackThrows).map fun t => decide (t.stack = [] ∧
          t.requestKind 1 = some .send ∧ Event.calledOps t.history = {0} ∧ t.sends.queue = [] ∧
          t.sends.inProgress = true)) = some true := by decide +kernel
    obtain ⟨s, reached, ran⟩ := Option.bind_eq_some_iff.mp ran
    obtain ⟨t, taken, facts⟩ := Option.map_eq_some_iff.mp ran
    obtain ⟨top, known, called, queue, marked⟩ := of_decide_eq_true facts
    refine ⟨s, t, reaches_of_run reached, taken, top, known, called, queue, marked, ?_⟩
    exact fun recovered => absurd (recovered.idle.symm.trans marked) (by decide)
  · have ran : ((run (Nccl.step 0) (fun _ _ => True) .initial
        [.getCommunicator, .post 0 .send 1 7 0 .ok, .post 0 .send 1 8 0 .ok, .post 0 .send 1 9 0 .ok,
          .fire 127, .fail 125, .progress 0]).bind fun s =>
        (Nccl.step 0 s .advance).map fun t => decide (t.stack = [] ∧
          Event.calledOps t.history = 0 ∧ t.reqsAt (0, .sends) = ⟨[1, 1, 2], true⟩)) = some true := by
      decide +kernel
    obtain ⟨s, reached, ran⟩ := Option.bind_eq_some_iff.mp ran
    obtain ⟨t, taken, facts⟩ := Option.map_eq_some_iff.mp ran
    obtain ⟨top, called, queue⟩ := of_decide_eq_true facts
    refine ⟨s, t, reaches_of_run reached, taken, top, called, queue, ?_⟩
    exact fun recovered => absurd (recovered.idle.symm.trans (congrArg (·.inProgress) queue)) (by decide)

end Oomph
