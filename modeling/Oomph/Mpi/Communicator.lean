import Oomph.Mpi.RequestQueue

namespace Oomph.Mpi

/-! One communicator of one context, used by one thread.  The call stack is explicit:
user code runs at the top level, which is the empty stack, and inside callbacks, and
wherever user code runs it may make any call.  An action is a call of the user, the
return of the running callback, or a step of library code together with what MPI
answers there.
-/

inductive Side
  | sends
  | recvs
deriving DecidableEq, Repr

inductive Stage
  | sends
  | recvs
  | context
deriving DecidableEq, Repr

inductive Frame
  | inplace (op : Nat)
  | sharedInplace (op : Nat)
  /-- The loop over `m_ready_queue`, with the request whose callback is running. -/
  | ready (side : Side) (position finish : Nat) (running : Option Nat)
  | shared (e : Nat)
  | progress (stage : Stage)
deriving DecidableEq, Repr

inductive Fault
  | indices
  | queue
deriving DecidableEq, Repr

structure SharedRequestQueue where
  queue : List Nat
  size : Int
  inProgress : Bool
deriving DecidableEq, Repr

structure State where
  heap : Heap
  posts : List Post
  sends : RequestQueue
  recvs : RequestQueue
  shared : SharedRequestQueue
  scheduled : Counter → Int
  recursionDepth : Nat
  contextRecursionDepth : Nat
  transport : Nat → Transport
  stack : List Frame
  history : List Event
  fault : Option Fault

namespace State

def initial : State where
  heap _ := { RequestStateBase.create 0 .send 0 0 0 with req := none, selfPtr := false, index := 0 }
  posts := []
  sends := .empty
  recvs := .empty
  shared := { queue := [], size := 0, inProgress := false }
  scheduled _ := 0
  recursionDepth := 0
  contextRecursionDepth := 0
  transport _ := .active
  stack := []
  history := []
  fault := none

def inUserCode (s : State) : Bool :=
  match s.stack with
  | [] => true
  | .inplace _ :: _ => true
  | .sharedInplace _ :: _ => true
  | .ready _ _ _ running :: _ => running.isSome
  | .shared _ :: _ => true
  | .progress _ :: _ => false

def reqs (s : State) : Side → RequestQueue
  | .sends => s.sends
  | .recvs => s.recvs

def setReqs (s : State) (side : Side) (reqs : RequestQueue) : State :=
  match side with
  | .sends => { s with sends := reqs }
  | .recvs => { s with recvs := reqs }

def hasReachedRecursionDepth (limit : Nat) (s : State) : Kind → Bool
  | .sharedRecv => limit < s.contextRecursionDepth
  | _ => limit < s.recursionDepth

/-- The operation is complete: the posting call runs the callback under a recursion
guard and returns an empty request. -/
def runInplace (kind : Kind) (rank : RankType) (tag : TagType) (s : State) : State :=
  let op := s.posts.length
  let called : State := { s with
    posts := s.posts ++ [{ comm := 0, kind, rank, tag, inplace := true }]
    transport := Function.update s.transport op .reported
    history := .called op rank tag :: s.history }
  match kind with
  | .sharedRecv => { called with
      contextRecursionDepth := s.contextRecursionDepth + 1
      stack := .sharedInplace op :: s.stack }
  | _ => { called with
      recursionDepth := s.recursionDepth + 1
      stack := .inplace op :: s.stack }

def enqueue (kind : Kind) (e : Nat) (s : State) : State :=
  match kind with
  | .send => { s with
      heap := s.heap.setIndex e s.sends.queue.length
      sends := s.sends.enqueue e }
  | .recv => { s with
      heap := s.heap.setIndex e s.recvs.queue.length
      recvs := s.recvs.enqueue e }
  | .sharedRecv => { s with
      shared := { s.shared with queue := s.shared.queue ++ [e], size := s.shared.size + 1 } }

def create (kind : Kind) (rank : RankType) (tag : TagType) (s : State) : State :=
  let op := s.posts.length
  enqueue kind op { s with
    posts := s.posts ++ [{ comm := 0, kind, rank, tag, inplace := false }]
    heap := Function.update s.heap op
      { RequestStateBase.create 0 kind rank tag op with
        req := some op, selfPtr := true, index := 0 }
    transport := Function.update s.transport op .active
    scheduled := countUp s.scheduled (kind.counter 0) }

end State

/-- What MPI answers to `MPI_Isend` or `MPI_Irecv` and the `MPI_Test` that follows. -/
inductive Posted
  | failed
  | incomplete
  | complete
deriving DecidableEq, Repr

namespace State

def post (limit : Nat) (kind : Kind) (rank : RankType) (tag : TagType) (answer : Posted)
    (s : State) : State :=
  match answer with
  | .failed => s
  | .incomplete => s.create kind rank tag
  | .complete =>
    if s.hasReachedRecursionDepth limit kind then s.create kind rank tag
    else s.runInplace kind rank tag

def reportedOps (handles : List MpiRequest) (positions : List Nat) : List Nat :=
  positions.filterMap fun position => handles[position]?.join

def handles (s : State) (side : Side) : List MpiRequest :=
  (s.reqs side).queue.map fun e => (s.heap e).req

def compacted (side : Side) (positions : List Nat) (s : State) : State :=
  let scan := compact s.heap (s.reqs side).queue positions
  let ops := reportedOps (s.handles side) positions
  { s.setReqs side { queue := scan.queue, readyQueue := scan.ready, inProgress := true } with
    heap := scan.heap
    transport := fun op => if op ∈ ops then .reported else s.transport op }

def enterLoop (side : Side) (positions : List Nat) (next : Stage) (rest : List Frame)
    (s : State) : State :=
  let after := s.compacted side positions
  { after with
    stack := .ready side 0 (after.reqs side).readyQueue.length none :: .progress next :: rest }

/-- `progress` of one queue, called by `communicator_impl::progress` with `next` still
to do.  With only null handles in the queue `MPI_Testsome` sets `outcount` to
`MPI_UNDEFINED`, which is negative, and `indices[outcount]` is written. -/
def progressQueue (side : Side) (next : Stage) (rest : List Frame) (answer : Testsome)
    (s : State) : Option State :=
  let reqs := s.reqs side
  if reqs.inProgress then some { s with stack := .progress next :: rest }
  else if reqs.queue = [] then some { s with stack := .progress next :: rest }
  else
    match answer with
    | .failed =>
      some { s.setReqs side { reqs with readyQueue := [], inProgress := true } with
        stack := rest }
    | .done positions =>
      if (s.handles side).all Option.isNone then some { s with fault := some .indices }
      else if positions = [] then
        some { s.setReqs side { reqs with readyQueue := [], inProgress := false } with
          stack := .progress next :: rest }
      else if Reportable s.transport (s.handles side) positions then
        some (s.enterLoop side positions next rest)
      else none

def releaseSelfRef (e : Nat) (s : State) : State :=
  { s with heap := Function.update s.heap e { s.heap e with selfPtr := false } }

def callCb (e : Nat) (s : State) : State :=
  { s with
    history := .called (s.heap e).cb (s.heap e).rank (s.heap e).tag :: s.history }

def finishCb (e : Nat) (s : State) : State :=
  { s with
    scheduled := countDown s.scheduled (s.heap e).scheduled
    heap := Function.update s.heap e { s.heap e with ready := true }
    history := .returned (s.heap e).cb :: s.history }

def setCanceled (e : Nat) (s : State) : State :=
  { s with
    scheduled := countDown s.scheduled (s.heap e).scheduled
    heap := Function.update s.heap e { s.heap e with ready := true, canceled := true }
    history := .canceled (s.heap e).cb :: s.history }

def startReady (side : Side) (position finish e : Nat) (rest : List Frame) (s : State) : State :=
  { (s.releaseSelfRef e).callCb e with
    stack := .ready side position finish (some e) :: rest }

def visitReady (side : Side) (position finish : Nat) (rest : List Frame) (s : State) : State :=
  if position < finish then
    match (s.reqs side).readyQueue[position]? with
    | some e => s.startReady side position finish e rest
    | none => { s with fault := some .queue }
  else
    { s.setReqs side { s.reqs side with inProgress := false } with stack := rest }

/-- `MPI_Test` succeeds at once for a null handle; otherwise it reports an operation
that is still active. -/
def testable (s : State) (e : Nat) : Bool :=
  match (s.heap e).req with
  | none => true
  | some op => s.transport op = .active

def startShared (position e : Nat) (rest : List Frame) (s : State) : State :=
  let popped := { s with
    shared := { s.shared with
      queue := s.shared.queue.drop (position + 1) ++ s.shared.queue.take position
      inProgress := true }
    transport := match (s.heap e).req with
      | none => s.transport
      | some op => Function.update s.transport op .reported }
  { (popped.releaseSelfRef e).callCb e with stack := .shared e :: rest }

/-- Requests are popped until the one at position `found` tests ready; those before it
go back to the end of the queue. -/
def progressShared (rest : List Frame) (found : Option Nat) (s : State) : Option State :=
  if s.shared.inProgress then some { s with stack := rest }
  else
    match found with
    | none =>
      if s.shared.queue.all fun e => (s.heap e).req.isSome then some { s with stack := rest }
      else none
    | some position =>
      match s.shared.queue[position]? with
      | none => none
      | some e =>
        if (s.shared.queue.take position).all (fun x => (s.heap x).req.isSome) &&
            s.testable e then
          some (s.startShared position e rest)
        else none

def returnCallback (s : State) : Option State :=
  match s.stack with
  | .inplace op :: rest => some { s with
      history := .returned op :: s.history
      recursionDepth := s.recursionDepth - 1
      stack := rest }
  | .sharedInplace op :: rest => some { s with
      history := .returned op :: s.history
      contextRecursionDepth := s.contextRecursionDepth - 1
      stack := rest }
  | .ready side position finish (some e) :: rest => some { s.finishCb e with
      stack := .ready side (position + 1) finish none :: rest }
  | .shared e :: rest =>
    let done := s.finishCb e
    some { done with
      shared := { done.shared with size := done.shared.size - 1, inProgress := false }
      stack := rest }
  | _ => none

end State

/-- A cancel returns, or leaves by an exception because `MPI_Cancel` refuses the null
handle, or accesses `m_queue` outside its bounds.  The exception needs a build without `NDEBUG`
and an error handler of MPI that returns: the default handler aborts, and with `NDEBUG` the
result of `MPI_Cancel` is not looked at and the cancel returns false. -/
inductive CancelResult
  | returned (result : Bool)
  | threw
  | undefined
deriving DecidableEq, Repr

namespace State

def removeRecv (index : Nat) (s : State) : State :=
  let queue := s.recvs.queue
  match queue.getLast? with
  | none => s
  | some back =>
    if index + 1 < queue.length then
      { s with
        heap := s.heap.setIndex back index
        recvs := { s.recvs with queue := (queue.set index back).dropLast } }
    else { s with recvs := { s.recvs with queue := queue.dropLast } }

/-- `mpi_request::cancel` of the handle that request `x` holds: `MPI_Wait` completes it
either way, and `flag` is what `MPI_Test_cancelled` says. -/
def cancelHandle (x op : Nat) (flag : Bool) (s : State) : State :=
  { s with
    heap := Function.update s.heap x { s.heap x with req := none }
    transport := Function.update s.transport op (if flag then .canceled else .waited) }

/-- The handle of `x`, which is at the index of `e`, is cancelled, and `e` is done. -/
def withdrawRecv (e x op : Nat) (s : State) : State :=
  (((s.cancelHandle x op true).releaseSelfRef e).setCanceled e).removeRecv (s.heap e).index

def withdrawShared (e op : Nat) (s : State) : State :=
  let removed := { s.cancelHandle e op true with
    shared := { s.shared with queue := s.shared.queue.erase e } }
  (removed.releaseSelfRef e).setCanceled e

/-- `recv_request::cancel` down to `request_queue::cancel`, where a null handle makes it throw in
a build without `NDEBUG` under an error handler that returns. -/
def cancelRecv (e : Nat) (flag : Bool) (s : State) : State × CancelResult :=
  if (s.heap e).ready then (s, .returned false)
  else
    match s.recvs.queue[(s.heap e).index]? with
    | none => ({ s with fault := some .queue }, .undefined)
    | some x =>
      match (s.heap x).req with
      | none => (s, .threw)
      | some op =>
        if flag then (s.withdrawRecv e x op, .returned true)
        else (s.cancelHandle x op false, .returned false)

/-- `shared_recv_request::cancel` down to `shared_request_queue::cancel`.  An exception
from the null handle, which needs the same build and handler, leaves only what `consume_all`
had not popped yet. -/
def cancelShared (e : Nat) (flag : Bool) (s : State) : State × CancelResult :=
  if (s.heap e).ready then (s, .returned false)
  else if e ∈ s.shared.queue then
    match (s.heap e).req with
    | none =>
      let left := s.shared.queue.drop (s.shared.queue.idxOf e + 1)
      ({ s with shared := { s.shared with queue := left } }, .threw)
    | some op =>
      if flag then (s.withdrawShared e op, .returned true)
      else (s.cancelHandle e op false, .returned false)
  else (s, .returned false)

end State

inductive Action
  | post (kind : Kind) (rank : RankType) (tag : TagType) (answer : Posted)
  | progress
  | contextProgress
  | cancel (e : Nat) (flag : Bool)
  | cancelShared (e : Nat) (flag : Bool)
  | callbackReturns
  | testsome (answer : Testsome)
  | test (found : Option Nat)
  | visit
deriving DecidableEq, Repr

def State.holdsRequest (s : State) (kind : Kind) (e : Nat) : Bool :=
  match s.posts[e]? with
  | some post => post.kind = kind && !post.inplace
  | none => false

def State.call (s : State) (action : Option State) : Option State :=
  if s.inUserCode then action else none

/-- One step of the communicator; `limit` is `OOMPH_RECURSION_DEPTH`. -/
def step (limit : Nat) (s : State) (action : Action) : Option State :=
  if s.fault.isSome then none
  else
    match action with
    | .post kind rank tag answer => s.call (some (s.post limit kind rank tag answer))
    | .progress => s.call (some { s with stack := .progress .sends :: s.stack })
    | .contextProgress => s.call (some { s with stack := .progress .context :: s.stack })
    | .cancel e flag =>
      s.call (if s.holdsRequest .recv e then some (s.cancelRecv e flag).1 else none)
    | .cancelShared e flag =>
      s.call (if s.holdsRequest .sharedRecv e then some (s.cancelShared e flag).1 else none)
    | .callbackReturns => s.returnCallback
    | .testsome answer =>
      match s.stack with
      | .progress .sends :: rest => s.progressQueue .sends .recvs rest answer
      | .progress .recvs :: rest => s.progressQueue .recvs .context rest answer
      | _ => none
    | .test found =>
      match s.stack with
      | .progress .context :: rest => s.progressShared rest found
      | _ => none
    | .visit =>
      match s.stack with
      | .ready side position finish none :: rest =>
        some (s.visitReady side position finish rest)
      | _ => none

end Oomph.Mpi
