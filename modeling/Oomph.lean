import Oomph.Machine.Books
import Oomph.Machine.Pool
import Oomph.Machine.Run
import Oomph.Machine.Memory
import Oomph.Machine.Owners
import Oomph.Mpi.RequestQueue
import Oomph.Request
import Oomph.Mpi.Communicator
import Oomph.Mpi.Compaction
import Oomph.Mpi.Custody
import Oomph.Mpi.Effects
import Oomph.Mpi.Sound
import Oomph.Mpi.FailedCancel
import Oomph.Mpi.Tracking
import Oomph.Mpi.Accounting
import Oomph.Mpi.Cancel
import Oomph.Libfabric.Matching
import Oomph.Libfabric.AddressVector
import Oomph.Libfabric.Communicator
import Oomph.Libfabric.Effects
import Oomph.Libfabric.Custody
import Oomph.Machine.Stacks
import Oomph.Libfabric.Settled
import Oomph.Libfabric.Accounting
import Oomph.Libfabric.Stacks
import Oomph.Libfabric.Delivery
import Oomph.Libfabric.CancelRecv
import Oomph.Ucx.Communicator
import Oomph.Ucx.Effects
import Oomph.Ucx.Stacks
import Oomph.Ucx.Records
import Oomph.Ucx.Memory
import Oomph.Ucx.Settled
import Oomph.Ucx.Careful
import Oomph.Ucx.Accounting
import Oomph.Ucx.Delivery
import Oomph.Ucx.Progress
import Oomph.Ucx.EarlyReceive
import Oomph.Ucx.CancelRecv
import Oomph.Ucx.SharedCancel
import Oomph.Nccl.Communicator
import Oomph.Nccl.RequestQueue
import Oomph.Nccl.Effects
import Oomph.Nccl.Settled
import Oomph.Nccl.GroupEvent
import Oomph.Nccl.GroupNesting
import Oomph.Mpi.SharedQueue
import Oomph.Mpi.SharedPlaces
import Oomph.Mpi.SharedLaw
import Oomph.Mpi.SharedFlags
import Oomph.Barrier
import Oomph.SendMulti
import Oomph.Answers
import Oomph.Mpi.Recursion
import Oomph.Ucx.Tag
import Oomph.Tags
import Oomph.Ucx.AddressDb
import Oomph.Libfabric.Bootstrap
import Oomph.Libfabric.BootstrapRuns
import Oomph.Machine.Guard
import Oomph.Ucx.LockDiscipline
import Oomph.Machine.Reentry
import Oomph.Ucx.Nesting
import Oomph.Libfabric.Nesting
import Oomph.Mpi.Calls
import Oomph.Mpi.Flags
import Oomph.Mpi.Reentry
import Oomph.Nccl.Places
import Oomph.Nccl.Flags
import Oomph.Nccl.Reentry
import Oomph.Reentry
import Oomph.Libfabric.Flags
import Oomph.Libfabric.ContextProgress
import Oomph.Nccl.Accounting
import Oomph.Nccl.Passes
import Oomph.Nccl.Progress
import Oomph.Exceptions
import Oomph.Mpi.ReportOrder
import Oomph.Mpi.Exceptions
import Oomph.Nccl.GroupState
import Oomph.Ucx.EndpointClose
import Oomph.Ucx.RequestData
import Oomph.Libfabric.Polling
import Oomph.Libfabric.MemorySegment
import Oomph.CommunicatorSet
import Oomph.Handles
import Oomph.UniqueFunction.Layout
import Oomph.UniqueFunction.Wrappers
import Oomph.UniqueFunction.Ownership
import Oomph.Ucx.Flags
import Oomph.Readiness
import Oomph.Mpi.SharedAnswers
import Oomph.Cancellation
import Oomph.Machine.References
import Oomph.UnsafeSharedPtr
import Oomph.Ucx.Worker
import Oomph.WaitAll
