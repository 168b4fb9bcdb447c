import Oomph.Libfabric.Delivery
import Oomph.Libfabric.Flags
import Oomph.Mpi.Flags
import Oomph.Mpi.SharedFlags
import Oomph.Nccl.Accounting
import Oomph.Nccl.Flags
import Oomph.SendMulti
import Oomph.Ucx.Flags

namespace Oomph

open Machine

/-! Readiness is an empty request, a flag or a counter.  The first two follow the callback in every
backend.  The counter of `send_multi` starts at the number of neighbours, and with none it is
zero although no callback is ever called.
-/

theorem Mpi.ready_called {limit : Nat} {s : Mpi.State}
    (reached : Reaches (Mpi.step limit) (fun _ _ => True) .initial s) :
    ReadyLaw s.posts s.requests s.history s.running :=
  readyLaw_of_sound (Mpi.marks_of_reaches reached)
    (Multiset.nodup_of_le (Multiset.le_add_left _ _) (State.Calling.of_reaches reached).calls.once) _

theorem Mpi.Shared.ready_called {threads : Nat} {s : Mpi.Shared.State}
    (reached : Reaches Mpi.Shared.step (fun _ _ => True) (.initial threads) s) :
    ReadyLaw s.posts (fun e => (s.heap e).toRequestStateBase) s.history s.running := by
  obtain ⟨lost, tracked, flagged⟩ := flagged_of_reaches reached
  intro op post found ready uncanceled _
  have request := (tracked.made.kind post (List.mem_of_getElem? found)).2.2
  have marked : (s.heap op).ready = true := by simpa [isReady, request] using ready
  refine Multiset.count_eq_one_of_mem tracked.consistent.called_nodup ?_
  rcases flagged.ready op marked with called | canceled | ⟨stack, member, localQueue, inside⟩
  · exact called
  · exact absurd (flagged.canceled op canceled) uncanceled
  · exact absurd (tracked.told.frames stack member _ inside) uncanceled

theorem Ucx.ready_called {config : Ucx.Config} {threads : Nat} {s : Ucx.State}
    (reached : Reaches (Ucx.step config) Ucx.Careful (.initial threads) s) :
    ReadyLaw s.posts (fun op => (s.heap op).toRequestStateBase) s.history s.running :=
  have flagged := flagged_of_reaches reached
  readyLaw_of_sound flagged.marks flagged.consistent.called_nodup _

theorem Libfabric.ready_called {config : Libfabric.Config} {threads : Nat} {s : Libfabric.State}
    (reached : Reaches (Libfabric.step config) (fun _ _ => True) (.initial threads) s) :
    ReadyLaw s.posts (fun op => (s.heap op).toRequestStateBase) s.history s.running :=
  readyLaw_of_sound (marks_of_reaches reached)
    (State.consistent_of_reaches reached).called_nodup _

theorem Nccl.ready_called {rank : RankType} {s : Nccl.State}
    (reached : Reaches (Nccl.step rank) (fun _ _ => True) .initial s) :
    ReadyLaw s.posts s.requests s.history s.running :=
  have answers := answers_of_reaches reached
  readyLaw_of_sound answers.2 answers.1.calls.once _

/-- In every run of every backend a request of `send`, `recv` or `shared_recv` that is ready was
called back once, with UCX as long as cancels come in time.  For a request of `send_multi` this
holds just when the call has a neighbour. -/
theorem ready_called_iff (limit threads : Nat) (ucx : Ucx.Config) (libfabric : Libfabric.Config)
    (rank : RankType) :
    (∀ s, Reaches (Mpi.step limit) (fun _ _ => True) .initial s →
      ReadyLaw s.posts s.requests s.history s.running) ∧
    (∀ s, Reaches Mpi.Shared.step (fun _ _ => True) (.initial threads) s →
      ReadyLaw s.posts (fun e => (s.heap e).toRequestStateBase) s.history s.running) ∧
    (∀ s, Reaches (Ucx.step ucx) Ucx.Careful (.initial threads) s →
      ReadyLaw s.posts (fun op => (s.heap op).toRequestStateBase) s.history s.running) ∧
    (∀ s, Reaches (Libfabric.step libfabric) (fun _ _ => True) (.initial threads) s →
      ReadyLaw s.posts (fun op => (s.heap op).toRequestStateBase) s.history s.running) ∧
    (∀ s, Reaches (Nccl.step rank) (fun _ _ => True) .initial s →
      ReadyLaw s.posts s.requests s.history s.running) ∧
    ∀ (Buffer : Type) (call : SendMulti.Call Buffer) start, call.start = some start →
      call.Matched →
      ((∀ s, Reaches (SendMulti.step call) (fun _ _ => True) start s → s.ReadyLaw) ↔
        call.neighs ≠ []) :=
  ⟨fun _ => Mpi.ready_called, fun _ => Mpi.Shared.ready_called, fun _ => Ucx.ready_called,
    fun _ => Libfabric.ready_called, fun _ => Nccl.ready_called,
    fun _ _ _ started matched => SendMulti.readyLaw_iff started matched⟩

/-- A receive with UCX that completes in `progress`, and a message to two neighbours. -/
theorem ready_called_after_progress :
    (∃ s post, Reaches (Ucx.step ⟨20, true⟩) Ucx.Careful (.initial 1) s ∧
      s.posts[0]? = some post ∧ isReady post (s.heap 0).toRequestStateBase = true ∧
      (Event.calledOps s.history).count 0 = 1) ∧
    ∃ (call : SendMulti.Call Unit) (start : SendMulti.State Unit), call.neighs = [1, 2] ∧
      call.start = some start ∧
      ∀ s, Reaches (SendMulti.step call) (fun _ _ => True) start s → s.ReadyLaw := by
  obtain ⟨_, _, ucx, _, _, multi⟩ := ready_called_iff 0 1 ⟨20, true⟩ ⟨20, 10, 64⟩ 0
  constructor
  · have ran : (run (Ucx.step ⟨20, true⟩) Ucx.Careful (.initial 1)
        [⟨0, .getCommunicator⟩, ⟨0, .recv 0 1 7⟩, ⟨0, .advance⟩, ⟨0, .ucx (.inProgress 3)⟩,
          ⟨0, .progress 0⟩, ⟨0, .ucx (.progressed false)⟩, ⟨0, .advance⟩,
          ⟨0, .ucx (.callback ⟨3, 0, none⟩ .ok)⟩, ⟨0, .ucx (.progressed false)⟩, ⟨0, .advance⟩,
          ⟨0, .advance⟩, ⟨0, .advance⟩, ⟨0, .callbackReturns⟩]).map (fun s => decide
            (s.posts[0]? = some ⟨0, .recv, 1, 7, false⟩ ∧ (s.heap 0).ready = true ∧
              0 ∉ Event.canceledOps s.history ∧ 0 ∉ s.running)) = some true := by
      decide +kernel
    obtain ⟨s, reached, ran⟩ := Option.map_eq_some_iff.mp ran
    obtain ⟨posted, ready, uncanceled, returned⟩ := of_decide_eq_true ran
    have reached := reaches_of_run reached
    exact ⟨s, _, reached, posted, ready, ucx s reached 0 _ posted ready uncanceled returned⟩
  · refine ⟨⟨.rvalue, 0, ⟨some (), 3⟩, 4, [1, 2], .one 7⟩, _, rfl, rfl, ?_⟩
    exact (multi Unit _ _ rfl fun _ same => by cases same).mpr (List.cons_ne_nil _ _)

/-- `send_multi` without neighbours returns a request that is ready, and the callback is not
called. -/
theorem empty_send_multi_ready :
    ∃ (call : SendMulti.Call Unit) (start s : SendMulti.State Unit), call.neighs = [] ∧
      call.start = some start ∧ Reaches (SendMulti.step call) (fun _ _ => True) start s ∧
      s.returned = true ∧ s.isReady = true ∧ s.inCallback = false ∧ s.received = [] ∧
      ¬ s.ReadyLaw := by
  refine ⟨⟨.rvalue, 0, ⟨some (), 3⟩, 4, [], .one 7⟩, _, _, rfl, rfl,
    .tail .refl ⟨.leave, trivial, rfl⟩, rfl, rfl, rfl, rfl, fun lawful => ?_⟩
  cases lawful rfl rfl rfl

end Oomph
