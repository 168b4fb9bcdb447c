import Oomph.Libfabric.Flags
import Oomph.Mpi.SharedFlags
import Oomph.Mpi.Tracking
import Oomph.Nccl.Passes
import Oomph.Ucx.Flags

namespace Oomph

open Machine

/-- `communicator::is_ready` -/
def allReady (scheduled : Counter → Int) (comm : Nat) : Bool :=
  scheduled (.sends comm) == 0 && scheduled (.recvs comm) == 0 && scheduled .sharedRecvs == 0

/-- The operation has a request state, and is the communicator's own or a shared receive. -/
def Post.awaitedBy (comm : Nat) (post : Post) : Prop :=
  post.inplace = false ∧ (post.comm = comm ∨ post.kind = .sharedRecv)

/-- `wait_all` returns when the operations it waits for are answered, and not inside one of their
callbacks. -/
structure WaitAllLaw (posts : List Post) (scheduled : Counter → Int) (answered : Nat → Prop)
    (running : Multiset Nat) : Prop where
  returns : ∀ comm, allReady scheduled comm = true ↔
    ∀ op, PostedAs posts op (Post.awaitedBy comm) → answered op
  waits : ∀ comm, ∀ op ∈ running, PostedAs posts op (Post.awaitedBy comm) →
    allReady scheduled comm = false

theorem postedAs_awaitedBy {posts : List Post} {op comm : Nat} :
    PostedAs posts op (Post.awaitedBy comm) ↔
      Books.keyOf Post.counter posts op = some (.sends comm) ∨
      Books.keyOf Post.counter posts op = some (.recvs comm) ∨
      Books.keyOf Post.counter posts op = some .sharedRecvs := by
  unfold PostedAs Books.keyOf
  cases posts[op]? with
  | none => simp
  | some post =>
    obtain ⟨own, kind, rank, tag, inplace⟩ := post
    cases inplace <;> cases kind <;> simp [Post.awaitedBy, Post.counter, Kind.counter]

theorem waitAllLaw_of_consistent {books : Books Post Counter}
    (consistent : books.Consistent Post.counter) :
    WaitAllLaw books.attrs books.outstanding (fun op => op ∈ books.returned ∨ op ∈ books.withdrawn)
      books.running := by
  have returns (comm : Nat) : allReady books.outstanding comm = true ↔
      ∀ op, PostedAs books.attrs op (Post.awaitedBy comm) →
        op ∈ books.returned ∨ op ∈ books.withdrawn := by
    simp [allReady, consistent.outstanding_eq_zero_iff, postedAs_awaitedBy, or_imp, forall_and,
      and_assoc]
  refine ⟨returns, fun comm op runs posted => ?_⟩
  rw [← Bool.not_eq_true, returns]
  intro all
  exact (all op posted).elim (consistent.not_returned_of_running runs)
    (consistent.not_withdrawn_of_called (consistent.called_of_running runs))

/-- The callback of the operation has returned, or a cancel has withdrawn it. -/
def Answered (history : List Event) (op : Nat) : Prop :=
  op ∈ Event.returnedOps history ∨ op ∈ Event.canceledOps history

/-- The law holds in every run of every backend, with MPI and UCX as long as cancels come in time,
with NCCL as long as nothing fails. -/
theorem wait_all_answered (limit threads : Nat) (ucx : Ucx.Config) (libfabric : Libfabric.Config)
    (rank : RankType) :
    (∀ s, Reaches (Mpi.step limit) Mpi.Sane .initial s →
      WaitAllLaw s.posts s.scheduled (Answered s.history) s.running) ∧
    (∀ s, Leads Mpi.Shared.step (.initial threads) s →
      WaitAllLaw s.posts s.scheduled (Answered s.history) s.running) ∧
    (∀ s, Reaches (Ucx.step ucx) Ucx.Careful (.initial threads) s →
      WaitAllLaw s.posts s.scheduled (Answered s.history) s.running) ∧
    (∀ s, Leads (Libfabric.step libfabric) (.initial threads) s →
      WaitAllLaw s.posts s.scheduled (Answered s.history) s.running) ∧
    ∀ s, Reaches (Nccl.step rank) Nccl.Smooth .initial s →
      WaitAllLaw s.posts s.scheduled (· ∈ Event.returnedOps s.history) s.running := by
  refine ⟨fun s reached => ?_, fun s reached => ?_, fun s reached => ?_, fun s reached => ?_,
    fun s reached => ?_⟩
  · exact waitAllLaw_of_consistent (Mpi.State.Tracked.of_reaches reached).consistent
  · obtain ⟨lost, tracked, -⟩ := Mpi.Shared.flagged_of_reaches reached
    exact waitAllLaw_of_consistent tracked.consistent
  · exact waitAllLaw_of_consistent (Ucx.flagged_of_reaches reached).consistent
  · exact waitAllLaw_of_consistent (Libfabric.flagged_of_reaches reached).consistent
  · simpa [Nccl.State.books] using
      waitAllLaw_of_consistent (Nccl.State.Orderly.of_reaches reached).consistent

/-- The callback of a receive with MPI runs. -/
theorem not_all_ready_in_callback :
    ∃ s, Reaches (Mpi.step 20) Mpi.Sane .initial s ∧ 0 ∈ s.running ∧
      allReady s.scheduled 0 = false := by
  obtain ⟨s, reached, runs, posted⟩ := exists_of_run (Mpi.step 20) Mpi.Sane .initial
    [.post .recv 1 7 .incomplete, .progress, .testsome (.done []), .testsome (.done [0]), .visit]
    (fun s => 0 ∈ s.running ∧ s.posts[0]? = some ⟨0, .recv, 1, 7, false⟩) (by decide)
  have law := (wait_all_answered 20 0 ⟨20, true⟩ ⟨20, 32, 64⟩ 0).1 s reached
  exact ⟨s, reached, runs, law.waits 0 0 runs ⟨_, posted, rfl, .inl rfl⟩⟩

end Oomph
