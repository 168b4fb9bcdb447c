import Oomph.Mpi.Reentry
import Oomph.Nccl.Reentry
import Oomph.Ucx.Nesting
import Oomph.Libfabric.Nesting

namespace Oomph

open Machine

/-- Which requests a call of `progress` serves that returns, in any state of any run: those of a
queue that is not in progress, and with MPI only if no failed cancel has left a null handle. -/
theorem progress_completes_iff (limit : Nat) (rank : RankType) :
    (∀ s t side e, Leads (Mpi.step limit) Mpi.State.initial s →
      s.requestKind e = some side.kind → e ∈ s.waiting → Mpi.ProgressReturns limit side e s t →
      (t.CalledBack e ↔ (s.reqs side).inProgress = false ∧ (s.heap e).req ≠ none)) ∧
    ∀ s t key e, Leads (Nccl.step rank) Nccl.State.initial s →
      requestOf s.posts e = some (key.1, key.2.kind) → s.Waits e →
      Nccl.ProgressReturns rank key e s t →
      (t.CalledBack e ↔ (s.reqsAt key).inProgress = false) :=
  ⟨fun _ _ _ _ reached known waits call => Mpi.progress_serves_iff reached known waits call,
    fun _ _ _ _ reached known waits call => Nccl.progress_serves_iff reached known waits call⟩

/-- At the top level the requests are served. -/
theorem progress_completes_reached :
    (∃ s t, Leads (Mpi.step 0) Mpi.State.initial s ∧ Mpi.ProgressReturns 0 .sends 0 s t ∧
      t.CalledBack 0) ∧
    ∃ s t, Leads (Nccl.step 0) Nccl.State.initial s ∧ Nccl.ProgressReturns 0 (0, .sends) 0 s t ∧
      t.CalledBack 0 := by
  constructor
  · obtain ⟨s, begun, t, reached, calls, returns, known, waits, idle, active, back⟩ :=
      exists_call_of_run (Mpi.step 0) (fun _ _ => True) .initial
        [.post .send 1 7 .incomplete] .progress
        (fun s => Mpi.Attends s.stack .sends 0)
        [.testsome (.done [0]), .visit, .callbackReturns, .visit, .testsome (.done []), .test none]
        (fun s t => s.requestKind 0 = some .send ∧ 0 ∈ s.waiting ∧
          (s.reqs .sends).inProgress = false ∧ (s.heap 0).req ≠ none ∧ t.stack = s.stack)
        (by decide +kernel)
    have call : Mpi.ProgressReturns 0 .sends 0 s t := ⟨begun, calls, returns, back⟩
    exact ⟨s, t, reached, call,
      ((progress_completes_iff 0 0).1 s t .sends 0 reached known waits call).mpr ⟨idle, active⟩⟩
  · obtain ⟨s, begun, t, reached, calls, returns, known, waits, idle, inactive, back⟩ :=
      exists_call_of_run (Nccl.step 0) (fun _ _ => True) .initial
        [.getCommunicator, .post 0 .send 1 7 0 .ok, .fire 127] (.progress 0)
        (fun s => Nccl.Attends s.stack (0, .sends) 0)
        [.advance, .advance, .callbackReturns, .advance, .advance, .advance]
        (fun s t => requestOf s.posts 0 = some (0, .send) ∧
          0 ∈ (s.reqsAt (0, .sends)).queue ∧ (s.reqsAt (0, .sends)).inProgress = false ∧
          (∀ c ∈ s.comms[0]?, c.isGroupActive = false) ∧ t.stack = s.stack)
        (by decide +kernel)
    have call : Nccl.ProgressReturns 0 (0, .sends) 0 s t :=
      ⟨inactive, begun, calls, returns, back⟩
    exact ⟨s, t, reached, call, ((progress_completes_iff 0 0).2 s t (0, .sends) 0 reached known
      (.inl (Nccl.queued_iff.mpr (.inl ⟨_, waits⟩))) call).mpr idle⟩

/-- Two sends are complete, and the callback of the first calls `progress`: the call returns and
the second has not been called back. -/
theorem nested_progress_serves_nothing :
    (∃ s t, Leads (Mpi.step 0) Mpi.State.initial s ∧ s.requestKind 1 = some .send ∧
      1 ∈ s.waiting ∧ Mpi.ProgressReturns 0 .sends 1 s t ∧ ¬ t.CalledBack 1) ∧
    ∃ s t, Leads (Nccl.step 0) Nccl.State.initial s ∧ requestOf s.posts 1 = some (0, .send) ∧
      s.Waits 1 ∧ Nccl.ProgressReturns 0 (0, .sends) 1 s t ∧ ¬ t.CalledBack 1 := by
  constructor
  · obtain ⟨s, begun, t, reached, calls, returns, known, waits, uncalled, back⟩ :=
      exists_call_of_run (Mpi.step 0) (fun _ _ => True) .initial
        [.post .send 1 7 .incomplete, .post .send 1 8 .incomplete, .progress,
          .testsome (.done [0, 1]), .visit] .progress
        (fun s => Mpi.Attends s.stack .sends 1)
        [.testsome (.done []), .testsome (.done []), .test none]
        (fun s t => s.requestKind 1 = some .send ∧ 1 ∈ s.waiting ∧ ¬ t.CalledBack 1 ∧
          t.stack = s.stack)
        (by decide +kernel)
    exact ⟨s, t, reached, known, waits, ⟨begun, calls, returns, back⟩, uncalled⟩
  · obtain ⟨s, begun, t, reached, calls, returns, known, waits, inactive, uncalled, back⟩ :=
      exists_call_of_run (Nccl.step 0) (fun _ _ => True) .initial
        [.getCommunicator, .post 0 .send 1 7 0 .ok, .post 0 .send 1 8 0 .ok, .fire 127, .fire 126,
          .progress 0, .advance, .advance] (.progress 0)
        (fun s => Nccl.Attends s.stack (0, .sends) 1)
        [.advance, .advance, .advance]
        (fun s t => requestOf s.posts 1 = some (0, .send) ∧ 1 ∈ s.waiting ∧
          (∀ c ∈ s.comms[0]?, c.isGroupActive = false) ∧ ¬ t.CalledBack 1 ∧ t.stack = s.stack)
        (by decide +kernel)
    exact ⟨s, t, reached, known, .inr waits, ⟨inactive, begun, calls, returns, back⟩, uncalled⟩

/-- For every recursion depth one thread with one communicator gets more callbacks on its
stack than any bound, in both modes of UCX and for every poll size of libfabric. -/
theorem callbacks_nest_unboundedly (recursionDepth bound : Nat) :
    (∀ threadSafe, ∃ s, Leads (Ucx.step ⟨recursionDepth, threadSafe⟩) (Ucx.State.initial 1) s ∧
      s.comms.length = 1 ∧ bound < nested Ucx.Frame.isCallback s.threads 0) ∧
    (∀ pollSize txInjectSize,
      ∃ s, Leads (Libfabric.step ⟨recursionDepth, pollSize + 1, txInjectSize⟩)
        (Libfabric.State.initial 1) s ∧ s.comms.length = 1 ∧
        bound < nested Libfabric.Frame.isCallback s.threads 0) :=
  ⟨fun _ => Ucx.exists_deep_nesting _ bound,
    fun pollSize _ => Libfabric.exists_deep_nesting _ (Nat.succ_pos pollSize) bound⟩

/-- No bound for the default depth. -/
theorem no_bound_for_depth_twenty :
    (¬ ∃ bound, ∀ s, Leads (Ucx.step ⟨20, true⟩) (Ucx.State.initial 1) s →
      s.comms.length = 1 → nested Ucx.Frame.isCallback s.threads 0 ≤ bound) ∧
    (¬ ∃ bound, ∀ s, Leads (Libfabric.step ⟨20, 10, 64⟩) (Libfabric.State.initial 1) s →
      s.comms.length = 1 → nested Libfabric.Frame.isCallback s.threads 0 ≤ bound) := by
  constructor
  · rintro ⟨bound, bounded⟩
    obtain ⟨s, leads, single, more⟩ := Ucx.exists_deep_nesting ⟨20, true⟩ bound
    exact (bounded s leads single).not_gt more
  · rintro ⟨bound, bounded⟩
    obtain ⟨s, leads, single, more⟩ :=
      Libfabric.exists_deep_nesting ⟨20, 10, 64⟩ (by decide) bound
    exact (bounded s leads single).not_gt more

end Oomph
