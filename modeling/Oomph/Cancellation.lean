import Oomph.Libfabric.Flags
import Oomph.Mpi.Flags
import Oomph.Mpi.SharedAnswers
import Oomph.Ucx.Flags

namespace Oomph

open Machine

/-- When `is_canceled` of a receive is right: with MPI as long as cancels hit their own receives,
and with UCX as long as they come in time, just when the receive did not complete inside the
posting call and no cancel that has marked it has still to return true.  With libfabric no receive
completes inside the posting call, and the answer is always right. -/
theorem canceled_answer_iff (limit threads : Nat) (ucx : Ucx.Config)
    (libfabric : Libfabric.Config) :
    (∀ recorded e post,
      Reaches (Mpi.recordStep limit) (fun s => Mpi.Sane s.1) (.initial, []) recorded →
      recorded.1.posts[e]? = some post → post.kind ≠ .send →
      (CanceledAnswer post (recorded.1.requests e) ((e, .returned true) ∈ recorded.2)
        (e ∈ Event.calledOps recorded.1.history) ↔ post.inplace = false)) ∧
    (∀ s e post, Reaches Mpi.Shared.step (fun _ _ => True) (.initial threads) s →
      s.posts[e]? = some post →
      (CanceledAnswer post (s.heap e).toRequestStateBase ((e, .returned true) ∈ s.results)
        (e ∈ Event.calledOps s.history) ↔ e ∉ s.returning)) ∧
    (∀ s op post, Reaches (Ucx.step ucx) Ucx.Careful (.initial threads) s →
      s.posts[op]? = some post → post.kind ≠ .send →
      (CanceledAnswer post (s.heap op).toRequestStateBase ((op, true) ∈ s.cancelResults)
        (op ∈ Event.calledOps s.history) ↔ post.inplace = false ∧ op ∉ s.freeing)) ∧
    ∀ s op post, Reaches (Libfabric.step libfabric) (fun _ _ => True) (.initial threads) s →
      s.posts[op]? = some post → post.kind ≠ .send →
      CanceledAnswer post (s.heap op).toRequestStateBase ((op, true) ∈ s.cancelResults)
        (op ∈ Event.calledOps s.history) := by
  refine ⟨fun _ _ _ reached posted _ => Mpi.canceledAnswer_iff reached posted,
    fun _ _ _ reached posted => ?_,
    fun _ _ _ reached posted _ => (Ucx.flagged_of_reaches reached).canceledAnswer_iff posted,
    fun _ _ _ reached posted receive =>
      (Libfabric.flagged_of_reaches reached).canceledAnswer posted receive⟩
  obtain ⟨_, tracked, confirmed⟩ := Mpi.Shared.confirmed_of_reaches reached
  exact confirmed.canceledAnswer_iff tracked posted

/-- A receive is cancelled and says so, and another completes in `progress` and does not. -/
theorem canceled_answer_after_cancel :
    ∃ recorded, Reaches (Mpi.recordStep 0) (fun s => Mpi.Sane s.1) (.initial, []) recorded ∧
      recorded.2 = [(1, .returned true)] ∧ 0 ∈ Event.calledOps recorded.1.history ∧
      ∀ e < 2, ∃ post, recorded.1.posts[e]? = some post ∧
        CanceledAnswer post (recorded.1.requests e) ((e, .returned true) ∈ recorded.2)
          (e ∈ Event.calledOps recorded.1.history) := by
  obtain ⟨recorded, reached, results, called, first, second⟩ := exists_of_run (Mpi.recordStep 0)
      (fun s => Mpi.Sane s.1) (.initial, [])
    [.post .recv 1 7 .incomplete, .post .recv 1 8 .incomplete, .cancel 1 true, .progress,
      .testsome (.done []), .testsome (.done [0]), .visit, .callbackReturns, .visit, .test none]
    (fun recorded => recorded.2 = [(1, .returned true)] ∧ 0 ∈ Event.calledOps recorded.1.history ∧
      recorded.1.posts[0]? = some ⟨0, .recv, 1, 7, false⟩ ∧
      recorded.1.posts[1]? = some ⟨0, .recv, 1, 8, false⟩) (by decide +kernel)
  obtain ⟨answers, -⟩ := canceled_answer_iff 0 1 ⟨20, true⟩ ⟨20, 10, 64⟩
  refine ⟨recorded, reached, results, called, fun e small => ?_⟩
  have either : e = 0 ∨ e = 1 := by omega
  rcases either with rfl | rfl
  · exact ⟨_, first, (answers recorded 0 _ reached first nofun).mpr rfl⟩
  · exact ⟨_, second, (answers recorded 1 _ reached second nofun).mpr rfl⟩

/-- A receive completes inside the posting call and is called back.  Nobody has cancelled it, but
it says that it was cancelled. -/
theorem completed_receive_says_canceled :
    (∃ recorded post, Reaches (Mpi.recordStep 20) (fun s => Mpi.Sane s.1) (.initial, []) recorded ∧
      recorded.1.posts[0]? = some post ∧ post.kind = .recv ∧ recorded.2 = [] ∧
      0 ∈ Event.calledOps recorded.1.history ∧
      isCanceled post (recorded.1.requests 0) = true ∧
      ¬ CanceledAnswer post (recorded.1.requests 0) ((0, .returned true) ∈ recorded.2)
        (0 ∈ Event.calledOps recorded.1.history)) ∧
    ∃ s post, Reaches (Ucx.step ⟨20, true⟩) Ucx.Careful (.initial 1) s ∧
      s.posts[0]? = some post ∧ post.kind = .recv ∧ s.cancelResults = [] ∧
      0 ∈ Event.calledOps s.history ∧ isCanceled post (s.heap 0).toRequestStateBase = true ∧
      ¬ CanceledAnswer post (s.heap 0).toRequestStateBase ((0, true) ∈ s.cancelResults)
        (0 ∈ Event.calledOps s.history) := by
  constructor
  · have ran : (run (Mpi.recordStep 20) (fun s => Mpi.Sane s.1) (.initial, [])
        [.post .recv 1 7 .complete, .callbackReturns]).map (fun recorded => decide
          (recorded.1.posts[0]? = some ⟨0, .recv, 1, 7, true⟩ ∧ recorded.2 = [] ∧
            0 ∈ Event.calledOps recorded.1.history)) = some true := by decide +kernel
    obtain ⟨recorded, reached, ran⟩ := Option.map_eq_some_iff.mp ran
    obtain ⟨posted, results, called⟩ := of_decide_eq_true ran
    refine ⟨recorded, _, reaches_of_run reached, posted, rfl, results, called, rfl, fun answer => ?_⟩
    cases answer.uncalled called
  · have ran : (run (Ucx.step ⟨20, true⟩) Ucx.Careful (.initial 1)
        [⟨0, .getCommunicator⟩, ⟨0, .recv 0 1 7⟩, ⟨0, .advance⟩, ⟨0, .ucx (.early 3)⟩,
          ⟨0, .advance⟩, ⟨0, .advance⟩, ⟨0, .callbackReturns⟩]).map (fun s => decide
            (s.posts[0]? = some ⟨0, .recv, 1, 7, true⟩ ∧ s.cancelResults = [] ∧
              0 ∈ Event.calledOps s.history)) = some true := by decide +kernel
    obtain ⟨s, reached, ran⟩ := Option.map_eq_some_iff.mp ran
    obtain ⟨posted, results, called⟩ := of_decide_eq_true ran
    refine ⟨s, _, reaches_of_run reached, posted, rfl, results, called, rfl, fun answer => ?_⟩
    cases answer.uncalled called

end Oomph
