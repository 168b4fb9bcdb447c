import Oomph.Nccl.RequestQueue

namespace Oomph.Nccl

/-! The communicators of one context, used by one thread, with the pool of CUDA events and the
group nesting of NCCL.  The call stack is explicit: user code runs at the top level, which is
the empty stack, and inside callbacks, and wherever user code runs it may make any call.  An
action is a call of the user with what NCCL and CUDA answer to it, the end of the running
callback, a step of library code, or a change of an event on the device.

NCCL queues the operations of a thread while a group is open and submits them in the
outermost `ncclGroupEnd`.
-/

inductive Side
  | sends
  | recvs
deriving DecidableEq, Repr

/-- A frame is one call of `communicator_impl::progress` or `context_impl::progress`. -/
inductive Frame
  | queue (comm : Nat) (side : Side)
  | ready (comm : Nat) (side : Side) (waiting : List Nat)
  /-- The loop over the ready requests, while the callback of one runs. -/
  | callback (comm : Nat) (side : Side) (op : Nat) (waiting : List Nat)
  | context
  | shared (op : Nat)
deriving DecidableEq, Repr

def Side.next (comm : Nat) : Side → Frame
  | .sends => .queue comm .recvs
  | .recvs => .context

def Frame.running : Frame → Option Nat
  | .callback _ _ op _ => some op
  | .shared op => some op
  | _ => none

/-- The event of a group is known by the number of groups opened before. -/
structure GroupInfo where
  event : Nat
  lastStream : Option Nat
deriving DecidableEq, Repr

structure CommunicatorImpl where
  sendReqs : RequestQueue
  recvReqs : RequestQueue
  groupInfo : Option GroupInfo
deriving DecidableEq, Repr

namespace CommunicatorImpl

def empty : CommunicatorImpl :=
  { sendReqs := .empty, recvReqs := .empty, groupInfo := none }

def isGroupActive (c : CommunicatorImpl) : Bool :=
  c.groupInfo.isSome

def reqs (c : CommunicatorImpl) : Side → RequestQueue
  | .sends => c.sendReqs
  | .recvs => c.recvReqs

def setReqs (side : Side) (reqs : RequestQueue) (c : CommunicatorImpl) : CommunicatorImpl :=
  match side with
  | .sends => { c with sendReqs := reqs }
  | .recvs => { c with recvReqs := reqs }

def setGroupInfo (groupInfo : Option GroupInfo) (c : CommunicatorImpl) : CommunicatorImpl :=
  { c with groupInfo }

def enqueue (kind : Kind) (e : Nat) (c : CommunicatorImpl) : CommunicatorImpl :=
  match kind with
  | .send => { c with sendReqs := c.sendReqs.enqueue e }
  | .recv => { c with recvReqs := c.recvReqs.enqueue e }
  | .sharedRecv => c

end CommunicatorImpl

inductive Thrown
  | groupActive
  | groupInactive
  | selfWithoutGroup
  | progressInGroup
  | nccl
  | cuda
  | callback
deriving DecidableEq, Repr

inductive Holder
  | request (op : Nat)
  | group (g : Nat)
deriving DecidableEq, Repr

inductive Mark
  | submitted (op : Nat)
  | recorded (holder : Holder) (stream : Nat)
deriving DecidableEq, Repr

structure State where
  /-- `m_events` of the pool, the last one first. -/
  pool : List CudaEvent
  created : Nat
  cuda : Nat → Query
  groupEvents : List CudaEvent
  groupDepth : Nat
  queued : List Nat
  comms : List CommunicatorImpl
  heap : Nat → RequestState
  posts : List Post
  sharedQueue : List Nat
  /-- The variables of `shared_request_queue::progress` that the thread keeps. -/
  localQueue : List Nat
  sharedInProgress : Bool
  scheduled : Counter → Int
  stack : List Frame
  /-- No step reads the last three, newest first. -/
  history : List Event
  thrown : List Thrown
  marks : List Mark

def expectedPoolSize : Nat := 128

namespace State

def initial : State where
  pool := (List.range expectedPoolSize).reverse.map fun event => { event, recorded := false }
  created := expectedPoolSize
  cuda _ := .success
  groupEvents := []
  groupDepth := 0
  queued := []
  comms := []
  heap _ := { RequestStateBase.create 0 .send 0 0 0 with
    req := .cached ⟨0, false⟩, selfPtr := false, held := false }
  posts := []
  sharedQueue := []
  localQueue := []
  sharedInProgress := false
  scheduled _ := 0
  stack := []
  history := []
  thrown := []
  marks := []

def inUserCode (s : State) : Bool :=
  match s.stack with
  | [] => true
  | .callback _ _ _ _ :: _ => true
  | .shared _ :: _ => true
  | _ => false

@[simps -fullyApplied]
def throws (thrown : Thrown) (s : State) : State :=
  { s with thrown := thrown :: s.thrown }

@[simps -fullyApplied]
def setStack (stack : List Frame) (s : State) : State :=
  { s with stack }

@[simps -fullyApplied]
def modifyComm (comm : Nat) (change : CommunicatorImpl → CommunicatorImpl) (s : State) : State :=
  { s with comms := s.comms.modify comm change }

@[simps -fullyApplied]
def addCommunicator (s : State) : State :=
  { s with comms := s.comms ++ [.empty] }

def nextEvent (s : State) : CudaEvent :=
  match s.pool with
  | [] => { event := s.created, recorded := false }
  | e :: _ => e

@[simps -fullyApplied]
def popEvent (s : State) : State :=
  { s with
    pool := s.pool.tail
    created := if s.pool = [] then s.created + 1 else s.created }

@[simps -fullyApplied]
def pushEvent (e : CudaEvent) (s : State) : State :=
  { s with pool := e :: s.pool }

def alive (s : State) (op : Nat) : Bool :=
  (s.heap op).selfPtr || (s.heap op).held || s.stack.any (·.running = some op)

def refers (s : State) (g : Nat) : Bool :=
  s.comms.any (fun c => c.groupInfo.any (·.event = g)) ||
    (List.range s.posts.length).any fun op => s.alive op && (s.heap op).req = .group g

/-- The pool after an owner of the shared event has gone. -/
def releasedPool (g : Nat) (s : State) : List CudaEvent :=
  if s.refers g then s.pool else s.groupEvents[g]?.toList ++ s.pool

def sweptPool (op : Nat) (s : State) : List CudaEvent :=
  if s.alive op then s.pool
  else
    match (s.heap op).req with
    | .cached e => e :: s.pool
    | .group g => s.releasedPool g

@[simps -fullyApplied]
def releaseGroup (g : Nat) (s : State) : State :=
  { s with pool := s.releasedPool g }

@[simps -fullyApplied]
def sweep (op : Nat) (s : State) : State :=
  { s with pool := s.sweptPool op }

@[simps -fullyApplied]
def ncclGroupStart (s : State) : State :=
  { s with groupDepth := s.groupDepth + 1 }

@[simps -fullyApplied]
def ncclGroupEnd (s : State) : State :=
  { s with
    groupDepth := s.groupDepth - 1
    queued := if s.groupDepth = 1 then [] else s.queued
    marks := if s.groupDepth = 1 then (s.queued.map .submitted).reverse ++ s.marks else s.marks }

/-- `m_group_info.emplace()` with the event that was taken from the pool. -/
@[simps -fullyApplied]
def openGroup (comm : Nat) (e : CudaEvent) (s : State) : State :=
  { s with
    groupEvents := s.groupEvents ++ [e]
    comms := s.comms.modify comm
      (·.setGroupInfo (some { event := s.groupEvents.length, lastStream := none })) }

@[simps -fullyApplied]
def recordGroup (g stream : Nat) (s : State) : State :=
  { s with
    groupEvents := s.groupEvents.modify g fun e => { e with recorded := true }
    cuda := match s.groupEvents[g]? with
      | some e => Function.update s.cuda e.event .notReady
      | none => s.cuda
    marks := .recorded (.group g) stream :: s.marks }

def resetGroup (comm g : Nat) (s : State) : State :=
  (s.modifyComm comm (·.setGroupInfo none)).releaseGroup g

end State

/-- The first of the NCCL and CUDA calls that fails, if any. -/
inductive Answer
  | ok
  | ncclFails
  | createFails
  | recordFails
deriving DecidableEq, Repr

namespace State

/-- An event is created only when the pool is empty. -/
def startGroup (comm : Nat) (answer : Answer) (s : State) : Option State :=
  match s.comms[comm]? with
  | none => none
  | some c =>
    if c.isGroupActive then some (s.throws .groupActive)
    else
      match answer with
      | .ncclFails => some (s.throws .nccl)
      | .createFails => if s.pool = [] then some (s.ncclGroupStart.throws .cuda) else none
      | .ok => some (s.ncclGroupStart.popEvent.openGroup comm s.nextEvent)
      | .recordFails => none

def endGroup (comm : Nat) (answer : Answer) (s : State) : Option State :=
  match s.comms[comm]? with
  | none => none
  | some c =>
    match c.groupInfo with
    | none => some (s.throws .groupInactive)
    | some info =>
      match answer, info.lastStream with
      | .ncclFails, _ => some (s.throws .nccl)
      | .ok, none => some (s.ncclGroupEnd.resetGroup comm info.event)
      | .ok, some stream =>
        some ((s.ncclGroupEnd.recordGroup info.event stream).resetGroup comm info.event)
      | .recordFails, some _ => some (s.ncclGroupEnd.throws .cuda)
      | _, _ => none

@[simps -fullyApplied]
def ncclPost (op : Nat) (s : State) : State :=
  { s with
    queued := if s.groupDepth = 0 then s.queued else s.queued ++ [op]
    marks := if s.groupDepth = 0 then .submitted op :: s.marks else s.marks }

@[simps -fullyApplied]
def recordRequest (op : Nat) (e : CudaEvent) (stream : Nat) (s : State) : State :=
  { s with
    cuda := Function.update s.cuda e.event .notReady
    marks := .recorded (.request op) stream :: s.marks }

@[simps -fullyApplied]
def create (comm : Nat) (kind : Kind) (rank : RankType) (tag : TagType) (req : NcclRequest)
    (s : State) : State :=
  { s with
    posts := s.posts ++ [{ comm, kind, rank, tag, inplace := false }]
    heap := Function.update s.heap s.posts.length
      { RequestStateBase.create comm kind rank tag s.posts.length with
        req, selfPtr := true, held := true }
    scheduled := countUp s.scheduled (kind.counter comm)
    comms := s.comms.modify comm (·.enqueue kind s.posts.length)
    sharedQueue := match kind with
      | .sharedRecv => s.sharedQueue ++ [s.posts.length]
      | _ => s.sharedQueue }

def postGroup (comm : Nat) (kind : Kind) (rank : RankType) (tag : TagType) (stream : Nat)
    (info : GroupInfo) (s : State) : State :=
  ((s.ncclPost s.posts.length).modifyComm comm
    (·.setGroupInfo (some { info with lastStream := some stream }))).create comm kind rank tag
      (.group info.event)

def postSingle (comm : Nat) (kind : Kind) (rank : RankType) (tag : TagType) (stream : Nat)
    (s : State) : State :=
  (((s.ncclPost s.posts.length).popEvent).recordRequest s.posts.length s.nextEvent stream).create
    comm kind rank tag (.cached { s.nextEvent with recorded := true })

/-- `send`, `recv` and `shared_recv`.  When the event of a single request cannot be recorded it
goes back to the pool. -/
def post (rank : RankType) (comm : Nat) (kind : Kind) (peer : RankType) (tag : TagType)
    (stream : Nat) (answer : Answer) (s : State) : Option State :=
  match s.comms[comm]? with
  | none => none
  | some c =>
    if peer = rank ∧ c.isGroupActive = false then some (s.throws .selfWithoutGroup)
    else
      match answer, c.groupInfo with
      | .ncclFails, _ => some (s.throws .nccl)
      | .ok, some info => some (s.postGroup comm kind peer tag stream info)
      | .ok, none => some (s.postSingle comm kind peer tag stream)
      | .createFails, none => if s.pool = [] then some (s.throws .cuda) else none
      | .recordFails, none => some ((s.popEvent.pushEvent s.nextEvent).throws .cuda)
      | _, _ => none

def isReady (s : State) (op : Nat) : Option Bool :=
  match (s.heap op).req with
  | .cached e => e.isReady s.cuda
  | .group g =>
    match s.groupEvents[g]? with
    | some e => e.isReady s.cuda
    | none => none

def progress (comm : Nat) (s : State) : Option State :=
  match s.comms[comm]? with
  | none => none
  | some c =>
    if c.isGroupActive then some (s.throws .progressInGroup)
    else some (s.setStack (.queue comm .sends :: s.stack))

/-- `request_queue::progress` up to the loop over the ready requests. -/
def progressQueue (comm : Nat) (side : Side) (rest : List Frame) (s : State) : Option State :=
  match s.comms[comm]? with
  | none => none
  | some c =>
    if (c.reqs side).inProgress then some (s.setStack (side.next comm :: rest))
    else if (c.reqs side).queue = [] then some (s.setStack (side.next comm :: rest))
    else
      match scan s.isReady (c.reqs side).queue with
      | .ok scanned =>
        some ((s.modifyComm comm
          (·.setReqs side { queue := scanned.left, inProgress := true })).setStack
            (.ready comm side scanned.ready :: rest))
      | .error scanned =>
        some (((s.modifyComm comm
          (·.setReqs side { queue := scanned.queue, inProgress := true })).setStack
            rest).throws .cuda)

@[simps -fullyApplied]
def releaseSelfRef (e : Nat) (s : State) : State :=
  { s with heap := Function.update s.heap e { s.heap e with selfPtr := false } }

@[simps -fullyApplied]
def callCb (e : Nat) (s : State) : State :=
  { s with
    history := .called (s.heap e).cb (s.heap e).rank (s.heap e).tag :: s.history }

@[simps -fullyApplied]
def finishCb (e : Nat) (s : State) : State :=
  { s with
    scheduled := countDown s.scheduled (s.heap e).scheduled
    heap := Function.update s.heap e { s.heap e with ready := true }
    history := .returned (s.heap e).cb :: s.history }

def visitReady (comm : Nat) (side : Side) (waiting : List Nat) (rest : List Frame) (s : State) :
    Option State :=
  match waiting with
  | e :: waiting =>
    some (((s.releaseSelfRef e).callCb e).setStack (.callback comm side e waiting :: rest))
  | [] =>
    (s.comms[comm]?).map fun c =>
      (s.modifyComm comm (·.setReqs side { c.reqs side with inProgress := false })).setStack
        (side.next comm :: rest)

@[simps -fullyApplied]
def setShared (sharedQueue localQueue : List Nat) (sharedInProgress : Bool) (s : State) : State :=
  { s with sharedQueue, localQueue, sharedInProgress }

def progressShared (rest : List Frame) (s : State) : State :=
  if s.sharedInProgress then s.setStack rest
  else
    match popReady s.isReady s.sharedQueue s.localQueue with
    | .none skipped => (s.setShared skipped [] false).setStack rest
    | .found e queue skipped =>
      (((s.setShared (queue ++ skipped) [] false).releaseSelfRef e).callCb e).setStack
        (.shared e :: rest)
    | .threw queue skipped => ((s.setShared queue skipped true).setStack rest).throws .cuda

def advance (s : State) : Option State :=
  match s.stack with
  | .queue comm side :: rest => s.progressQueue comm side rest
  | .ready comm side waiting :: rest => s.visitReady comm side waiting rest
  | .context :: rest => some (s.progressShared rest)
  | _ => none

/-- The reference that the loop has taken goes when the callback is done. -/
def returnCallback (s : State) : Option State :=
  match s.stack with
  | .callback comm side op waiting :: rest =>
    some (((s.finishCb op).setStack (.ready comm side waiting :: rest)).sweep op)
  | .shared op :: rest => some (((s.finishCb op).setStack rest).sweep op)
  | _ => none

/-- The exception of a callback leaves the call of `progress` that runs it. -/
def throwCallback (s : State) : Option State :=
  match s.stack with
  | .callback _ _ op _ :: rest => some (((s.setStack rest).sweep op).throws .callback)
  | .shared op :: rest => some (((s.setStack rest).sweep op).throws .callback)
  | _ => none

@[simps -fullyApplied]
def dropHandle (op : Nat) (s : State) : State :=
  { s with heap := Function.update s.heap op { s.heap op with held := false } }

@[simps -fullyApplied]
def setQuery (event : Nat) (query : Query) (s : State) : State :=
  { s with cuda := Function.update s.cuda event query }

end State

inductive Action
  | getCommunicator
  | startGroup (comm : Nat) (answer : Answer)
  | endGroup (comm : Nat) (answer : Answer)
  | post (comm : Nat) (kind : Kind) (peer : RankType) (tag : TagType) (stream : Nat)
      (answer : Answer)
  | progress (comm : Nat)
  | contextProgress
  | drop (op : Nat)
  | callbackReturns
  | callbackThrows
  | advance
  /-- The work before the event is done. -/
  | fire (event : Nat)
  /-- From now on queries of the event fail. -/
  | fail (event : Nat)
deriving DecidableEq, Repr

def State.call (s : State) (action : Option State) : Option State :=
  if s.inUserCode then action else none

/-- One step; `rank` is the rank of the process.  The scan of a queue is a single step, so no
event fires between the queries of one scan. -/
def step (rank : RankType) (s : State) (action : Action) : Option State :=
  match action with
  | .getCommunicator => s.call (some s.addCommunicator)
  | .startGroup comm answer => s.call (s.startGroup comm answer)
  | .endGroup comm answer => s.call (s.endGroup comm answer)
  | .post comm kind peer tag stream answer => s.call (s.post rank comm kind peer tag stream answer)
  | .progress comm => s.call (s.progress comm)
  | .contextProgress => s.call (some (s.setStack (.context :: s.stack)))
  | .drop op => s.call
      (if op < s.posts.length ∧ (s.heap op).held then some ((s.dropHandle op).sweep op) else none)
  | .callbackReturns => s.returnCallback
  | .callbackThrows => s.throwCallback
  | .advance => s.advance
  | .fire event => if s.cuda event = .notReady then some (s.setQuery event .success) else none
  | .fail event => some (s.setQuery event .error)

end Oomph.Nccl
