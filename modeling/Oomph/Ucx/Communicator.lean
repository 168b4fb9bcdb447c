import Oomph.Request
import Oomph.Machine.Memory

namespace Oomph.Ucx

open Machine

/-! Every communicator sends through a worker of its own.  All of them receive through one
worker of the context, which is guarded by `m_mutex` when the context is thread safe.
UCX calls `send_callback` and `recv_callback` while a worker is progressed; the latter
finds its request in the memory that belongs to the UCX request.  A step of library code
touches what threads share at most once, or while it holds the lock.
-/

structure Config where
  recursionDepth : Nat
  threadSafe : Bool
deriving DecidableEq, Repr

structure RequestState extends RequestStateBase where
  /-- `m_ucx_ptr`, null for a send that was completed immediately. -/
  ucxPtr : Option Nat
  selfPtr : Bool
deriving DecidableEq, Repr

abbrev Heap := Nat → RequestState

structure RequestData where
  req : Option Nat
  sharedReq : Option Nat
deriving DecidableEq, Repr

namespace RequestData

/-- What `init` and `destroy` leave. -/
def empty : RequestData where
  req := none
  sharedReq := none

def construct (kind : Kind) (op : Nat) : RequestData :=
  match kind with
  | .sharedRecv => { req := none, sharedReq := some op }
  | _ => { req := some op, sharedReq := none }

end RequestData

/-- A UCX request that has been returned as being in progress.  UCX knows the operation by
its buffer and its tag; `worker` is the communicator that sends, or the receive worker. -/
structure UcxRequest where
  ptr : Nat
  op : Nat
  worker : Option Nat
deriving DecidableEq, Repr

inductive Drain
  | sends (comm : Nat)
  | recvs (comm : Nat)
  | shared
deriving DecidableEq, Repr

namespace Drain

/-- Receives of the communicator are only drained in a thread safe context. -/
def next (config : Config) : Drain → Option Drain
  | .sends comm => if config.threadSafe then some (.recvs comm) else some .shared
  | .recvs _ => some .shared
  | .shared => none

def user : Drain → Option Nat
  | .sends comm => some comm
  | .recvs comm => some comm
  | .shared => none

def first : Option Nat → Drain
  | some comm => .sends comm
  | none => .shared

end Drain

/-- By which path a callback runs: inside `send`, inside `recv` or `shared_recv` (`none`),
from `send_callback`, from `recv_callback`, or from a queue. -/
inductive Via
  | immediate (comm : Nat)
  | early (user : Option Nat)
  | sent (comm : Nat)
  | received (comm : Nat)
  | queue (user : Option Nat)
deriving DecidableEq, Repr

inductive Code
  | send (dst : RankType) (tag : TagType)
  | lock (kind : Kind) (src : RankType) (tag : TagType)
  | post (kind : Kind) (src : RankType) (tag : TagType)
  | early (kind : Kind) (src : RankType) (tag : TagType) (ptr : Nat)
  | run (kind : Kind) (src : RankType) (tag : TagType)
  | defer (kind : Kind) (src : RankType) (tag : TagType) (ptr : Nat)
  | sendLoop
  | tryLock (tries : Nat)
  | recvLoop (tries : Nat)
  | clear (stage : Drain)
  | leave
  | cancelLock (op : Nat)
  | cancelLoop (op : Nat)
  | cancelScan (op : Nat)
  | cancelFree (op : Nat)
deriving DecidableEq, Repr

/-- A member function of the context is a call by the user `none`. -/
inductive Frame
  | callback (op : Nat) (via : Via)
  | invoke (op : Nat) (via : Via)
  | release (request : UcxRequest)
  | call (user : Option Nat) (code : Code)
deriving DecidableEq, Repr

structure CommunicatorImpl where
  owner : Nat
  sendReqQueue : List Nat
  recvReqQueue : List Nat
  cancelRecvReqQueue : List Nat
  recursionDepth : Nat
deriving DecidableEq, Repr

namespace CommunicatorImpl

def enqueueSend (op : Nat) (c : CommunicatorImpl) : CommunicatorImpl :=
  { c with sendReqQueue := c.sendReqQueue ++ [op] }

def enqueueRecv (op : Nat) (c : CommunicatorImpl) : CommunicatorImpl :=
  { c with recvReqQueue := c.recvReqQueue ++ [op] }

def enqueueCancelRecv (op : Nat) (c : CommunicatorImpl) : CommunicatorImpl :=
  { c with cancelRecvReqQueue := c.cancelRecvReqQueue ++ [op] }

def removeCanceled (op : Nat) (c : CommunicatorImpl) : CommunicatorImpl :=
  { c with cancelRecvReqQueue := c.cancelRecvReqQueue.filter (· ≠ op) }

end CommunicatorImpl

/-- A callback that finds the data of an earlier request or none at all, and a UCX request
that is used after it was freed. -/
inductive Fault
  | staleData
  | nullRequest
  | useAfterFree
deriving DecidableEq, Repr

/-- What happens to the memory of a UCX request, and on behalf of which operation: UCX
returns it, its pointer is passed to `ucp_request_cancel` or `request_data::get`, and it is
freed.  A receive that completes early has no request state. -/
abbrev PtrEvent := Lease Nat (Option Nat)

structure State where
  heap : Heap
  posts : List Post
  comms : List CommunicatorImpl
  recvReqQueue : List Nat
  cancelRecvReqQueue : List Nat
  recursionDepth : Nat
  mutex : Option Nat
  scheduled : Counter → Int
  /-- The memory of UCX requests, which UCX reuses, and the requests not yet freed. -/
  requestData : Nat → RequestData
  inUse : List Nat
  inFlight : List UcxRequest
  /-- The requests that UCX was asked to cancel while they were in progress. -/
  canceling : List Nat
  /-- The thread-local variable `found` of `context_impl::cancel_recv`. -/
  found : Nat → Bool
  threads : List (List Frame)
  history : List Event
  cancelResults : List (Nat × Bool)
  /-- What no step reads: the receives that UCX has completed, those among them that
  completed inside the posting call at the recursion limit, the operations whose UCX
  request ended with an error, and what happened to the memory of requests. -/
  completed : List Nat
  deferred : List Nat
  dropped : List Nat
  ptrEvents : List PtrEvent
  fault : Option Fault

namespace State

def initial (threads : Nat) : State where
  heap _ := { RequestStateBase.create 0 .send 0 0 0 with ucxPtr := none, selfPtr := false }
  posts := []
  comms := []
  recvReqQueue := []
  cancelRecvReqQueue := []
  recursionDepth := 0
  mutex := none
  scheduled _ := 0
  requestData _ := .empty
  inUse := []
  inFlight := []
  canceling := []
  found _ := false
  threads := List.replicate threads []
  history := []
  cancelResults := []
  completed := []
  deferred := []
  dropped := []
  ptrEvents := []
  fault := none

@[simps -fullyApplied]
def setStack (thread : Nat) (stack : List Frame) (s : State) : State :=
  { s with threads := s.threads.set thread stack }

@[simps -fullyApplied]
def modifyComm (comm : Nat) (change : CommunicatorImpl → CommunicatorImpl) (s : State) : State :=
  { s with comms := s.comms.modify comm change }

@[simps -fullyApplied]
def setMutex (holder : Option Nat) (s : State) : State :=
  { s with mutex := holder }

@[simps -fullyApplied]
def log (event : Event) (s : State) : State :=
  { s with history := event :: s.history }

@[simps -fullyApplied]
def logPtr (event : PtrEvent) (s : State) : State :=
  { s with ptrEvents := event :: s.ptrEvents }

@[simps -fullyApplied]
def fail (fault : Fault) (s : State) : State :=
  { s with fault := some fault }

@[simps -fullyApplied]
def returnCancel (op : Nat) (result : Bool) (s : State) : State :=
  { s with cancelResults := (op, result) :: s.cancelResults }

@[simps -fullyApplied]
def addCommunicator (thread : Nat) (s : State) : State :=
  { s with comms := s.comms ++ [{
      owner := thread, sendReqQueue := [], recvReqQueue := [], cancelRecvReqQueue := [],
      recursionDepth := 0 }] }

@[simps -fullyApplied]
def create (comm : Nat) (kind : Kind) (rank : RankType) (tag : TagType) (ucxPtr : Option Nat)
    (s : State) : State :=
  let op := s.posts.length
  { s with
    posts := s.posts ++ [{ comm, kind, rank, tag, inplace := false }]
    heap := Function.update s.heap op
      { RequestStateBase.create comm kind rank tag op with ucxPtr, selfPtr := true }
    scheduled := countUp s.scheduled (kind.counter comm) }

@[simps -fullyApplied]
def addPost (post : Post) (s : State) : State :=
  { s with posts := s.posts ++ [post] }

@[simps -fullyApplied]
def attach (request : UcxRequest) (kind : Kind) (s : State) : State :=
  { s with
    requestData := Function.update s.requestData request.ptr (.construct kind request.op)
    inUse := request.ptr :: s.inUse
    inFlight := s.inFlight ++ [request]
    ptrEvents := .lent request.ptr (some request.op) :: s.ptrEvents }

/-- A receive completes inside `ucp_tag_recv_nb`, which calls `recv_callback`; its request
is freed at once. -/
@[simps -fullyApplied]
def completeEarly (ptr : Nat) (s : State) : State :=
  { s with ptrEvents := .freed ptr none :: .used ptr none :: .lent ptr none :: s.ptrEvents }

/-- The same with an exception of `recv_callback`, which leaves the request allocated. -/
@[simps -fullyApplied]
def allocate (ptr : Nat) (s : State) : State :=
  { s with
    inUse := ptr :: s.inUse
    ptrEvents := .used ptr none :: .lent ptr none :: s.ptrEvents }

/-- UCX is done with a request and calls the callback it was given, which looks at its data. -/
@[simps -fullyApplied]
def takeRequest (request : UcxRequest) (s : State) : State :=
  { s with
    inFlight := s.inFlight.erase request
    canceling := s.canceling.filter (· ≠ request.ptr)
    ptrEvents := .used request.ptr (some request.op) :: s.ptrEvents }

@[simps -fullyApplied]
def release (request : UcxRequest) (s : State) : State :=
  { s with
    requestData := Function.update s.requestData request.ptr .empty
    inUse := s.inUse.erase request.ptr
    ptrEvents := .freed request.ptr (some request.op) :: s.ptrEvents }

@[simps -fullyApplied]
def complete (op : Nat) (s : State) : State :=
  { s with completed := op :: s.completed }

@[simps -fullyApplied]
def defer (op : Nat) (s : State) : State :=
  { s with deferred := op :: s.deferred }

@[simps -fullyApplied]
def drop (op : Nat) (s : State) : State :=
  { s with dropped := op :: s.dropped }

@[simps -fullyApplied]
def releaseSelfRef (op : Nat) (s : State) : State :=
  { s with heap := Function.update s.heap op { s.heap op with selfPtr := false } }

@[simps -fullyApplied]
def finishCb (op : Nat) (s : State) : State :=
  { s with
    scheduled := countDown s.scheduled (s.heap op).scheduled
    heap := Function.update s.heap op { s.heap op with ready := true }
    history := .returned (s.heap op).cb :: s.history }

/-- `if (m_thread_safe) m_mutex.lock()`, which waits while the lock is held. -/
def lock (config : Config) (thread : Nat) (s : State) : Option State :=
  if config.threadSafe then
    match s.mutex with
    | none => some (s.setMutex (some thread))
    | some _ => none
  else some s

@[simps -fullyApplied]
def unlock (config : Config) (s : State) : State :=
  { s with mutex := if config.threadSafe then none else s.mutex }

end State

def userOf (comm : Nat) : Kind → Option Nat
  | .sharedRecv => none
  | _ => some comm

namespace State

@[simps -fullyApplied]
def incRecursion (via : Via) (s : State) : State :=
  { s with
    comms := match via with
      | .immediate comm | .early (some comm) =>
        s.comms.modify comm fun c => { c with recursionDepth := c.recursionDepth + 1 }
      | _ => s.comms
    recursionDepth := match via with
      | .early none => s.recursionDepth + 1
      | _ => s.recursionDepth }

@[simps -fullyApplied]
def decRecursion (via : Via) (s : State) : State :=
  { s with
    comms := match via with
      | .immediate comm | .early (some comm) =>
        s.comms.modify comm fun c => { c with recursionDepth := c.recursionDepth - 1 }
      | _ => s.comms
    recursionDepth := match via with
      | .early none => s.recursionDepth - 1
      | _ => s.recursionDepth }

def onComm (user : Option Nat) (change : CommunicatorImpl → CommunicatorImpl)
    (comms : List CommunicatorImpl) : List CommunicatorImpl :=
  match user with
  | some comm => comms.modify comm change
  | none => comms

@[simps -fullyApplied]
def enqueueRecv (user : Option Nat) (op : Nat) (s : State) : State :=
  { s with
    comms := onComm user (.enqueueRecv op) s.comms
    recvReqQueue := if user.isNone then s.recvReqQueue ++ [op] else s.recvReqQueue }

@[simps -fullyApplied]
def enqueueCancelRecv (user : Option Nat) (op : Nat) (s : State) : State :=
  { s with
    comms := onComm user (.enqueueCancelRecv op) s.comms
    cancelRecvReqQueue :=
      if user.isNone then s.cancelRecvReqQueue ++ [op] else s.cancelRecvReqQueue }

/-- A send is completed immediately: `send` runs the callback and makes no request state. -/
def runSend (thread comm : Nat) (dst : RankType) (tag : TagType) (rest : List Frame) (s : State) :
    State :=
  let op := s.posts.length
  let sent := s.addPost { comm, kind := .send, rank := dst, tag, inplace := true }
  ((sent.incRecursion (.immediate comm)).log (.called op dst tag)).setStack thread
    (.callback op (.immediate comm) :: .call (some comm) .leave :: rest)

def queueSend (thread comm : Nat) (dst : RankType) (tag : TagType) (rest : List Frame)
    (s : State) : State :=
  ((s.create comm .send dst tag none).modifyComm comm (.enqueueSend s.posts.length)).setStack
    thread rest

def submitSend (thread comm : Nat) (dst : RankType) (tag : TagType) (ptr : Nat)
    (rest : List Frame) (s : State) : State :=
  let request := { ptr, op := s.posts.length, worker := some comm }
  ((s.create comm .send dst tag (some ptr)).attach request .send).setStack thread rest

def submitRecv (config : Config) (thread comm : Nat) (kind : Kind) (src : RankType)
    (tag : TagType) (ptr : Nat) (rest : List Frame) (s : State) : State :=
  let request := { ptr, op := s.posts.length, worker := none }
  (((s.create comm kind src tag (some ptr)).attach request kind).unlock config).setStack thread rest

def runEarly (thread comm : Nat) (kind : Kind) (src : RankType) (tag : TagType)
    (rest : List Frame) (s : State) : State :=
  let op := s.posts.length
  let received := (s.addPost { comm, kind, rank := src, tag, inplace := true }).complete op
  let via := Via.early (userOf comm kind)
  ((received.incRecursion via).log (.called op src tag)).setStack thread
    (.callback op via :: .call (some comm) .leave :: rest)

/-- At the recursion limit a receive that completed early gets a request state, which is queued.
Its UCX request has been freed before. -/
def deferEarly (thread comm : Nat) (kind : Kind) (src : RankType) (tag : TagType) (ptr : Nat)
    (rest : List Frame) (s : State) : State :=
  let op := s.posts.length
  let received := ((s.create comm kind src tag (some ptr)).complete op).defer op
  (received.enqueueRecv (userOf comm kind) op).setStack thread rest

def hasReachedRecursionDepth (config : Config) (s : State) (c : CommunicatorImpl) (kind : Kind) :
    Bool :=
  match kind with
  | .sharedRecv => config.recursionDepth < s.recursionDepth
  | _ => config.recursionDepth < c.recursionDepth

end State

inductive Status
  | ok
  | canceled
  | failed
deriving DecidableEq, Repr

inductive Answer
  | immediate
  | inProgress (ptr : Nat)
  /-- `ucp_tag_recv_nb` completes the receive, and calls `recv_callback` for it. -/
  | early (ptr : Nat)
  /-- The same for a message that does not fit, so that `recv_callback` throws. -/
  | truncated (ptr : Nat)
  | errorPtr
  | callback (request : UcxRequest) (status : Status)
  | progressed (more : Bool)
deriving DecidableEq, Repr

def RequestData.get (data : RequestData) : Option Nat :=
  match data.req with
  | some op => some op
  | none => data.sharedReq

namespace State

/-- `send_callback`, up to the end of the user's callback if it calls one. -/
def sendCallback (thread comm : Nat) (request : UcxRequest) (status : Status)
    (stack : List Frame) (s : State) : State :=
  let taken := s.takeRequest request
  match status with
  | .ok =>
    match (s.requestData request.ptr).get with
    | some op =>
      taken.setStack thread (.invoke op (.sent comm) :: .release request :: stack)
    | none => s.fail .nullRequest
  | _ => (taken.drop request.op).setStack thread (.release request :: stack)

/-- `recv_callback`, called by the innermost frame of the stack.  Its exception leaves that
member function. -/
def recvCallback (config : Config) (thread : Nat) (request : UcxRequest) (status : Status)
    (frame : Frame) (rest : List Frame) (s : State) : State :=
  let taken := s.takeRequest request
  match status with
  | .ok =>
    let freed := (taken.complete request.op).release request
    match s.requestData request.ptr with
    | { req := some op, .. } =>
      let comm := (s.heap op).comm
      if config.threadSafe then freed.enqueueRecv (some comm) op
      else freed.setStack thread (.invoke op (.received comm) :: frame :: rest)
    | { req := none, sharedReq := some op } => freed.enqueueRecv none op
    | { req := none, sharedReq := none } => taken.drop request.op
  | .canceled =>
    match s.requestData request.ptr with
    | { req := some op, .. } => taken.enqueueCancelRecv (some (s.heap op).comm) op
    | { req := none, sharedReq := some op } => taken.enqueueCancelRecv none op
    | { req := none, sharedReq := none } => s.fail .nullRequest
  | .failed => (taken.drop request.op).setStack thread rest

def mayComplete (s : State) (worker : Option Nat) (request : UcxRequest) (status : Status) : Bool :=
  request ∈ s.inFlight ∧ request.worker = worker ∧
    (status = .canceled → request.ptr ∈ s.canceling)

def afterSendLoop (config : Config) : Code :=
  if config.threadSafe then .tryLock 10 else .recvLoop 0

/-- A call of `ucp_worker_progress` for the receive worker returns.  Without the lock it is
repeated until nothing is left to do. -/
def recvProgressed (config : Config) (thread : Nat) (user : Option Nat) (tries : Nat)
    (more : Bool) (rest : List Frame) (s : State) : State :=
  if config.threadSafe || user.isNone then
    let next := if more then Code.tryLock tries else .clear (.first user)
    (s.setMutex none).setStack thread (.call user next :: rest)
  else
    let next := if more then Code.recvLoop tries else .clear (.first user)
    s.setStack thread (.call user next :: rest)

def tryLock (thread : Nat) (user : Option Nat) (rest : List Frame) (s : State) : Nat → State
  | 0 => s.setStack thread (.call user (.clear (.first user)) :: rest)
  | tries + 1 =>
    match s.mutex with
    | none => (s.setMutex (some thread)).setStack thread (.call user (.recvLoop tries) :: rest)
    | some _ => s.setStack thread (.call user (.tryLock tries) :: rest)

def reqQueue (s : State) : Drain → List Nat
  | .sends comm => (s.comms[comm]?.map CommunicatorImpl.sendReqQueue).getD []
  | .recvs comm => (s.comms[comm]?.map CommunicatorImpl.recvReqQueue).getD []
  | .shared => s.recvReqQueue

@[simps -fullyApplied]
def setReqQueue (stage : Drain) (queue : List Nat) (s : State) : State :=
  { s with
    comms := match stage with
      | .sends comm => s.comms.modify comm fun c => { c with sendReqQueue := queue }
      | .recvs comm => s.comms.modify comm fun c => { c with recvReqQueue := queue }
      | .shared => s.comms
    recvReqQueue := match stage with
      | .shared => queue
      | _ => s.recvReqQueue }

/-- `consume_all` takes the next request, or `progress` goes on to the next queue. -/
def drain (config : Config) (thread : Nat) (user : Option Nat) (stage : Drain)
    (rest : List Frame) (s : State) : State :=
  match s.reqQueue stage with
  | op :: queue =>
    (s.setReqQueue stage queue).setStack thread
      (.invoke op (.queue stage.user) :: .call user (.clear stage) :: rest)
  | [] =>
    match stage.next config with
    | some next => s.setStack thread (.call user (.clear next) :: rest)
    | none => s.setStack thread rest

def start (thread op : Nat) (via : Via) (rest : List Frame) (s : State) : State :=
  let called := Event.called (s.heap op).cb (s.heap op).rank (s.heap op).tag
  ((s.releaseSelfRef op).log called).setStack thread (.callback op via :: rest)

end State

def Via.inplace : Via → Bool
  | .immediate _ => true
  | .early _ => true
  | _ => false

namespace State

def returnCallback (thread op : Nat) (via : Via) (rest : List Frame) (s : State) : State :=
  if via.inplace then ((s.log (.returned op)).decRecursion via).setStack thread rest
  else (s.finishCb op).setStack thread rest

def cancelQueue (s : State) : Option Nat → List Nat
  | some comm => (s.comms[comm]?.map CommunicatorImpl.cancelRecvReqQueue).getD []
  | none => s.cancelRecvReqQueue

/-- `ucp_request_cancel`, which does nothing about a request that is no longer in progress. -/
@[simps -fullyApplied]
def requestCancel (ptr : Nat) (s : State) : State :=
  { s with
    canceling := if ptr ∈ s.inFlight.map UcxRequest.ptr then ptr :: s.canceling else s.canceling }

@[simps -fullyApplied]
def setCanceled (op : Nat) (s : State) : State :=
  { s with
    scheduled := countDown s.scheduled (s.heap op).scheduled
    heap := Function.update s.heap op { s.heap op with ready := true, canceled := true }
    history := .canceled (s.heap op).cb :: s.history }

@[simps -fullyApplied]
def destroyData (ptr : Nat) (s : State) : State :=
  { s with requestData := Function.update s.requestData ptr .empty }

/-- `ucp_request_free`; UCX calls no callback of this request afterwards. -/
@[simps -fullyApplied]
def requestFree (ptr : Nat) (s : State) : State :=
  { s with
    inUse := s.inUse.erase ptr
    inFlight := s.inFlight.filter (·.ptr ≠ ptr)
    canceling := s.canceling.filter (· ≠ ptr) }

def withRequest (op : Nat) (event : Nat → Option Nat → PtrEvent) (go : Nat → State → State)
    (s : State) : State :=
  match (s.heap op).ucxPtr with
  | some ptr =>
    let used := s.logPtr (event ptr (some op))
    if ptr ∈ s.inUse then go ptr used else used.fail .useAfterFree
  | none => s.fail .useAfterFree

def askCancel (config : Config) (thread : Nat) (user : Option Nat) (op : Nat)
    (rest : List Frame) (s : State) : Option State :=
  (s.lock config thread).map fun locked =>
    locked.withRequest op .used fun ptr used =>
      (used.requestCancel ptr).setStack thread (.call user (.cancelLoop op) :: rest)

/-- The context keeps the lock while it looks at its queue. -/
def cancelProgressed (config : Config) (thread : Nat) (user : Option Nat) (op : Nat)
    (more : Bool) (rest : List Frame) (s : State) : State :=
  if more then s
  else
    let released := if user.isSome then s.unlock config else s
    released.setStack thread (.call user (.cancelScan op) :: rest)

def withdraw (thread : Nat) (user : Option Nat) (op : Nat) (rest : List Frame) (s : State) :
    State :=
  ((s.releaseSelfRef op).setCanceled op).withRequest op .used fun ptr used =>
    (used.destroyData ptr).setStack thread (.call user (.cancelFree op) :: rest)

/-- Whether the receive is among the cancelled ones.  The variable that says so is one of the
thread in the context, and it is never reset. -/
def foundCanceled (thread : Nat) (user : Option Nat) (op : Nat) (s : State) : Bool :=
  match user with
  | some _ => op ∈ s.cancelQueue user
  | none => s.found thread || op ∈ s.cancelQueue user

/-- All cancelled receives are taken from the queue, and the others put back.  The context
has the lock until then. -/
@[simps -fullyApplied]
def takeCanceled (config : Config) (thread : Nat) (user : Option Nat) (op : Nat) (s : State) :
    State :=
  { s with
    comms := onComm user (.removeCanceled op) s.comms
    cancelRecvReqQueue :=
      if user.isNone then s.cancelRecvReqQueue.filter (· ≠ op) else s.cancelRecvReqQueue
    found := if user.isNone then Function.update s.found thread (s.foundCanceled thread user op)
      else s.found
    mutex := if user.isNone ∧ config.threadSafe then none else s.mutex }

def scanCancel (config : Config) (thread : Nat) (user : Option Nat) (op : Nat)
    (rest : List Frame) (s : State) : State :=
  let scanned := s.takeCanceled config thread user op
  if s.foundCanceled thread user op then scanned.withdraw thread user op rest
  else (scanned.returnCancel op false).setStack thread rest

def freeCanceled (config : Config) (thread op : Nat) (rest : List Frame) (s : State) :
    Option State :=
  (s.lock config thread).map fun _ =>
    s.withRequest op .freed fun ptr freed =>
      ((freed.requestFree ptr).returnCancel op true).setStack thread rest

end State

inductive Act
  | getCommunicator
  | send (comm : Nat) (dst : RankType) (tag : TagType)
  | recv (comm : Nat) (src : RankType) (tag : TagType)
  | sharedRecv (comm : Nat) (src : RankType) (tag : TagType)
  | progress (comm : Nat)
  | contextProgress
  | cancel (op : Nat)
  | callbackReturns
  | ucx (answer : Answer)
  | advance
deriving DecidableEq, Repr

structure Action where
  thread : Nat
  act : Act
deriving DecidableEq, Repr

def Frame.isCallback : Frame → Bool
  | .callback _ _ => true
  | _ => false

def inUserCode : List Frame → Bool
  | [] => true
  | .callback _ _ :: _ => true
  | _ => false

namespace State

def usable (s : State) (thread comm : Nat) : Bool :=
  match s.comms[comm]? with
  | some c => c.owner = thread
  | none => false

def userCall (config : Config) (thread : Nat) (stack : List Frame) (s : State) :
    Act → Option State
  | .getCommunicator => (s.lock config thread).map fun _ => s.addCommunicator thread
  | .send comm dst tag =>
    if s.usable thread comm then
      some (s.setStack thread (.call (some comm) (.send dst tag) :: stack))
    else none
  | .recv comm src tag =>
    if s.usable thread comm then
      some (s.setStack thread (.call (some comm) (.lock .recv src tag) :: stack))
    else none
  | .sharedRecv comm src tag =>
    if s.usable thread comm then
      some (s.setStack thread (.call (some comm) (.lock .sharedRecv src tag) :: stack))
    else none
  | .progress comm =>
    if s.usable thread comm then
      some (s.setStack thread (.call (some comm) .sendLoop :: stack))
    else none
  | .contextProgress => some (s.setStack thread (.call none (.tryLock 1) :: stack))
  | .cancel op =>
    match s.posts[op]? with
    | none => none
    | some post =>
      if post.inplace ∨ post.kind = .send ∨
          post.kind = .recv ∧ s.usable thread post.comm = false then none
      else if (s.heap op).ready then some (s.returnCancel op false)
      else some (s.setStack thread
        (.call (userOf post.comm post.kind) (.cancelLock op) :: stack))
  | _ => none

def answered (config : Config) (thread : Nat) (s : State) (answer : Answer) :
    List Frame → Option State
  | .call (some comm) (.send dst tag) :: rest =>
    match answer with
    | .immediate =>
      match s.comms[comm]? with
      | none => none
      | some c =>
        if s.hasReachedRecursionDepth config c .send then
          some (s.queueSend thread comm dst tag rest)
        else some (s.runSend thread comm dst tag rest)
    | .inProgress ptr =>
      if ptr ∈ s.inUse then none else some (s.submitSend thread comm dst tag ptr rest)
    | .errorPtr => some (s.setStack thread rest)
    | _ => none
  | .call (some comm) (.post kind src tag) :: rest =>
    match answer with
    | .inProgress ptr =>
      if ptr ∈ s.inUse then none
      else some (s.submitRecv config thread comm kind src tag ptr rest)
    | .early ptr =>
      if ptr ∈ s.inUse then none
      else if s.requestData ptr = .empty then
        some (((s.completeEarly ptr).unlock config).setStack thread
          (.call (some comm) (.early kind src tag ptr) :: rest))
      else some (s.fail .staleData)
    -- the exception passes the call of unlock
    | .truncated ptr =>
      if ptr ∈ s.inUse then none
      else some ((s.allocate ptr).setStack thread rest)
    | .errorPtr => some (s.setStack thread rest)
    | _ => none
  | .call (some comm) .sendLoop :: rest =>
    match answer with
    | .callback request status =>
      if s.mayComplete (some comm) request status then
        some (s.sendCallback thread comm request status (.call (some comm) .sendLoop :: rest))
      else none
    | .progressed more =>
      let next := if more then Code.sendLoop else afterSendLoop config
      some (s.setStack thread (.call (some comm) next :: rest))
    | _ => none
  | .call user (.recvLoop tries) :: rest =>
    match answer with
    | .callback request status =>
      if s.mayComplete none request status then
        some (s.recvCallback config thread request status (.call user (.recvLoop tries)) rest)
      else none
    | .progressed more => some (s.recvProgressed config thread user tries more rest)
    | _ => none
  | .call user (.cancelLoop op) :: rest =>
    match answer with
    | .callback request status =>
      if s.mayComplete none request status then
        some (s.recvCallback config thread request status (.call user (.cancelLoop op)) rest)
      else none
    | .progressed more => some (s.cancelProgressed config thread user op more rest)
    | _ => none
  | _ => none

def advance (config : Config) (thread : Nat) (s : State) : List Frame → Option State
  | .invoke op via :: rest => some (s.start thread op via rest)
  | .release request :: rest =>
    if request.ptr ∈ s.inUse then some ((s.release request).setStack thread rest)
    else some ((s.logPtr (.freed request.ptr (some request.op))).fail .useAfterFree)
  | .call user (.lock kind src tag) :: rest =>
    (s.lock config thread).map (·.setStack thread (.call user (.post kind src tag) :: rest))
  | .call (some comm) (.early kind src tag ptr) :: rest =>
    match s.comms[comm]? with
    | none => none
    | some c =>
      let next := if s.hasReachedRecursionDepth config c kind then Code.defer kind src tag ptr
        else .run kind src tag
      some (s.setStack thread (.call (some comm) next :: rest))
  | .call (some comm) (.run kind src tag) :: rest =>
    some (s.runEarly thread comm kind src tag rest)
  | .call (some comm) (.defer kind src tag ptr) :: rest =>
    some (s.deferEarly thread comm kind src tag ptr rest)
  | .call user (.tryLock tries) :: rest => some (s.tryLock thread user rest tries)
  | .call user (.clear stage) :: rest => some (s.drain config thread user stage rest)
  | .call _ .leave :: rest => some (s.setStack thread rest)
  | .call user (.cancelLock op) :: rest => s.askCancel config thread user op rest
  | .call user (.cancelScan op) :: rest => some (s.scanCancel config thread user op rest)
  | .call _ (.cancelFree op) :: rest => s.freeCanceled config thread op rest
  | _ => none

end State

def step (config : Config) (s : State) (action : Action) : Option State :=
  if s.fault.isSome then none
  else
    match s.threads[action.thread]? with
    | none => none
    | some stack =>
      match action.act with
      | .ucx answer => s.answered config action.thread answer stack
      | .advance => s.advance config action.thread stack
      | .callbackReturns =>
        match stack with
        | .callback op via :: rest => some (s.returnCallback action.thread op via rest)
        | _ => none
      | call => if inUserCode stack then s.userCall config action.thread stack call else none

end Oomph.Ucx
