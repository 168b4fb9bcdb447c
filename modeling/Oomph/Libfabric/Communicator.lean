import Oomph.Request

namespace Oomph.Libfabric

open Machine

/-! Any number of threads use the communicators of one context, each communicator by the
thread it was made for.  All of them share one endpoint, so any of them may read the
completion of any operation, and hands it to its owner through a queue.  Every thread
has its own call stack: user code runs at the top level, which is the empty stack, and
inside callbacks.  A step of library code touches what threads share at most once.
-/

structure Config where
  recursionDepth : Nat
  maxCompletionsPerPoll : Nat
  txInjectSize : Nat
deriving DecidableEq, Repr

structure RequestState extends RequestStateBase where
  selfPtr : Bool
deriving DecidableEq, Repr

abbrev Heap := Nat → RequestState

inductive Side
  | sends
  | recvs
deriving DecidableEq, Repr

inductive Drain
  | sends
  | recvs
  | shared
deriving DecidableEq, Repr

def Drain.next : Drain → Option Drain
  | .sends => some .recvs
  | .recvs => some .shared
  | .shared => none

/-- By which path a callback runs: inside `send` after an injection, in the completion
handler under the recursion guard of the communicator or of the context, or from a
queue of a communicator or of the context (`none`). -/
inductive Via
  | inject (comm : Nat)
  | inplace (comm : Nat)
  | context
  | queue (user : Option Nat)
deriving DecidableEq, Repr

def Via.user : Via → Option Nat
  | .inject comm => some comm
  | .inplace comm => some comm
  | .context => none
  | .queue user => user

/-- What a member function does next, in `execute_fi_function` for the first two. -/
inductive Code
  | inject (dst : RankType) (tag : TagType)
  | post (op : Nat)
  | pollRecv
  | clear (stage : Drain) (destroying : Bool)
  | cancel (op : Nat)
  | scan (op : Nat)
  | leave
deriving DecidableEq, Repr

/-- A member function of the context is a call by the user `none`, as its polls pass
a null pointer for the communicator. -/
inductive Frame
  | callback (op : Nat) (via : Via)
  | invoke (op : Nat) (via : Via)
  | park (op : Nat) (side : Side)
  | dispatch (user : Option Nat) (side : Side) (entries : List Nat)
  | work (user : Option Nat) (side : Side) (retry : Bool)
  | call (user : Option Nat) (code : Code)
deriving DecidableEq, Repr

structure CommunicatorImpl where
  owner : Nat
  alive : Bool
  sendCbQueue : List Nat
  recvCbQueue : List Nat
  recvCbCancel : List Nat
  recursionDepth : Nat
deriving DecidableEq, Repr

namespace CommunicatorImpl

def pushSend (op : Nat) (c : CommunicatorImpl) : CommunicatorImpl :=
  { c with sendCbQueue := c.sendCbQueue ++ [op] }

def pushRecv (op : Nat) (c : CommunicatorImpl) : CommunicatorImpl :=
  { c with recvCbQueue := c.recvCbQueue ++ [op] }

def pushCancel (op : Nat) (c : CommunicatorImpl) : CommunicatorImpl :=
  { c with recvCbCancel := c.recvCbCancel ++ [op] }

end CommunicatorImpl

inductive Terminal
  | completed
  | canceled
deriving DecidableEq, Repr

/-- `std::terminate`, a request whose communicator is gone, and a communicator that
is destroyed inside one of its own calls. -/
inductive Fault
  | terminated
  | dangling
  | destroyedInUse
deriving DecidableEq, Repr

structure State where
  heap : Heap
  posts : List Post
  comms : List CommunicatorImpl
  recvCbQueue : List Nat
  recvCbCancel : List Nat
  recursionDepth : Nat
  scheduled : Counter → Int
  /-- The operations given to the fabric whose event has not been read. -/
  tx : List Nat
  rx : List Nat
  canceling : List Nat
  terminal : Nat → Option Terminal
  threads : List (List Frame)
  history : List Event
  cancelResults : List (Nat × Bool)
  fault : Option Fault

namespace State

def initial (threads : Nat) : State where
  heap _ := { RequestStateBase.create 0 .send 0 0 0 with selfPtr := false }
  posts := []
  comms := []
  recvCbQueue := []
  recvCbCancel := []
  recursionDepth := 0
  scheduled _ := 0
  tx := []
  rx := []
  canceling := []
  terminal _ := none
  threads := List.replicate threads []
  history := []
  cancelResults := []
  fault := none

@[simps -fullyApplied]
def setStack (thread : Nat) (stack : List Frame) (s : State) : State :=
  { s with threads := s.threads.set thread stack }

@[simps -fullyApplied]
def modifyComm (comm : Nat) (change : CommunicatorImpl → CommunicatorImpl) (s : State) : State :=
  { s with comms := s.comms.modify comm change }

@[simps -fullyApplied]
def log (event : Event) (s : State) : State :=
  { s with history := event :: s.history }

@[simps -fullyApplied]
def returnCancel (op : Nat) (result : Bool) (s : State) : State :=
  { s with cancelResults := (op, result) :: s.cancelResults }

@[simps -fullyApplied]
def fail (fault : Fault) (s : State) : State :=
  { s with fault := some fault }

@[simps -fullyApplied]
def getCommunicator (thread : Nat) (s : State) : State :=
  { s with comms := s.comms ++ [{
      owner := thread, alive := true, sendCbQueue := [], recvCbQueue := [],
      recvCbCancel := [], recursionDepth := 0 }] }

@[simps -fullyApplied]
def create (comm : Nat) (kind : Kind) (rank : RankType) (tag : TagType) (s : State) : State :=
  let op := s.posts.length
  { s with
    posts := s.posts ++ [{ comm, kind, rank, tag, inplace := false }]
    heap := Function.update s.heap op
      { RequestStateBase.create comm kind rank tag op with selfPtr := true }
    scheduled := countUp s.scheduled (kind.counter comm) }

/-- `send` of a larger message, `recv` and `shared_recv`, up to the fabric. -/
def beginPost (thread comm : Nat) (kind : Kind) (rank : RankType) (tag : TagType)
    (stack : List Frame) (s : State) : State :=
  (s.create comm kind rank tag).setStack thread
    (.call (some comm) (.post s.posts.length) :: stack)

def incRecursion (via : Via) (s : State) : State :=
  match via with
  | .inject comm | .inplace comm =>
    s.modifyComm comm fun c => { c with recursionDepth := c.recursionDepth + 1 }
  | .context => { s with recursionDepth := s.recursionDepth + 1 }
  | .queue _ => s

def decRecursion (via : Via) (s : State) : State :=
  match via with
  | .inject comm | .inplace comm =>
    s.modifyComm comm fun c => { c with recursionDepth := c.recursionDepth - 1 }
  | .context => { s with recursionDepth := s.recursionDepth - 1 }
  | .queue _ => s

@[simps -fullyApplied]
def addPost (post : Post) (s : State) : State :=
  { s with posts := s.posts ++ [post] }

/-- An injected message is sent: `send` runs the callback and makes no request state. -/
def runInject (thread comm : Nat) (dst : RankType) (tag : TagType) (rest : List Frame)
    (s : State) : State :=
  let op := s.posts.length
  let sent := s.addPost { comm, kind := .send, rank := dst, tag, inplace := true }
  ((sent.incRecursion (.inject comm)).log (.called op dst tag)).setStack thread
    (.callback op (.inject comm) :: .call (some comm) .leave :: rest)

def queueInject (thread comm : Nat) (dst : RankType) (tag : TagType) (rest : List Frame)
    (s : State) : State :=
  ((s.create comm .send dst tag).modifyComm comm (.pushSend s.posts.length)).setStack thread rest

end State

def Side.ofKind : Kind → Side
  | .send => .sends
  | _ => .recvs

/-- What the fabric answers to `fi_tinject`, `fi_tsend` and `fi_trecv`. -/
inductive FiAnswer
  | success
  | again
  | failed
deriving DecidableEq, Repr

namespace State

def give (op : Nat) (kind : Kind) (s : State) : State :=
  match Side.ofKind kind with
  | .sends => { s with tx := s.tx ++ [op] }
  | .recvs => { s with rx := s.rx ++ [op] }

/-- Only `shared_recv` polls after posting. -/
def afterPost (user : Option Nat) : Kind → List Frame
  | .sharedRecv => [.call user .pollRecv]
  | _ => []

/-- One turn of the loop in `execute_fi_function`.  An error that is not `FI_EAGAIN`
terminates the program. -/
def executeFi (config : Config) (thread : Nat) (answer : FiAnswer) (stack : List Frame)
    (s : State) : Option State :=
  match stack, answer with
  | .call (some comm) (.inject dst tag) :: rest, .success =>
    match s.comms[comm]? with
    | none => none
    | some c =>
      if config.recursionDepth < c.recursionDepth then
        some (s.queueInject thread comm dst tag rest)
      else some (s.runInject thread comm dst tag rest)
  | .call user (.post op) :: rest, .success =>
    match s.posts[op]? with
    | none => none
    | some post =>
      some ((s.give op post.kind).setStack thread (afterPost user post.kind ++ rest))
  | .call user (.inject dst tag) :: rest, .again =>
    some (s.setStack thread (.work user .sends false :: .call user (.inject dst tag) :: rest))
  | .call user (.post op) :: rest, .again =>
    some (s.setStack thread (.work user .sends false :: .call user (.post op) :: rest))
  | .call _ (.inject _ _) :: _, .failed => some (s.fail .terminated)
  | .call _ (.post _) :: _, .failed => some (s.fail .terminated)
  | _, _ => none

end State

/-- What `fi_cq_read` gives: nothing (also when another thread has the lock), the
entries of completed operations, a cancelled receive, or another error. -/
inductive CqRead
  | nothing
  | entries (ops : List Nat)
  | canceled (op : Nat)
  | failed
deriving DecidableEq, Repr

def Frame.poll : Frame → Option (Option Nat × Side)
  | .work user side _ => some (user, side)
  | .call user .pollRecv => some (user, .recvs)
  | .call user (.cancel _) => some (user, .recvs)
  | _ => none

def Frame.afterPoll (config : Config) (count : Nat) : Frame → List Frame
  | .work user .sends _ => [.work user .recvs (count = config.maxCompletionsPerPoll)]
  | .work user .recvs retry =>
    if retry || count = config.maxCompletionsPerPoll then [.work user .sends false] else []
  | .call user .pollRecv => [.call user .leave]
  | .call user (.cancel op) => [.call user (.scan op)]
  | frame => [frame]

namespace State

def posted (s : State) : Side → List Nat
  | .sends => s.tx
  | .recvs => s.rx

def take (side : Side) (ops : List Nat) (s : State) : State :=
  let read := { s with terminal := fun op => if op ∈ ops then some .completed else s.terminal op }
  match side with
  | .sends => { read with tx := s.tx.diff ops }
  | .recvs => { read with rx := s.rx.diff ops }

def pushCancel (user : Option Nat) (op : Nat) (s : State) : State :=
  match user with
  | some comm => s.modifyComm comm (.pushCancel op)
  | none => { s with recvCbCancel := s.recvCbCancel ++ [op] }

def userOf (post : Post) : Option Nat :=
  match post.kind with
  | .sharedRecv => none
  | _ => some post.comm

def isAlive (s : State) (comm : Nat) : Bool :=
  match s.comms[comm]? with
  | some c => c.alive
  | none => false

@[simps -fullyApplied]
def takeCanceled (op : Nat) (s : State) : State :=
  { s with
    rx := s.rx.erase op
    terminal := Function.update s.terminal op (some .canceled) }

def handleCancelled (op : Nat) (post : Post) (s : State) : State :=
  (s.takeCanceled op).pushCancel (userOf post) op

def readCq (config : Config) (thread : Nat) (answer : CqRead) (stack : List Frame)
    (s : State) : Option State :=
  match stack with
  | [] => none
  | frame :: rest =>
    match frame.poll with
    | none => none
    | some (user, side) =>
      match answer with
      | .nothing => some (s.setStack thread (frame.afterPoll config 0 ++ rest))
      | .entries ops =>
        if ops ≠ [] ∧ ops.length ≤ config.maxCompletionsPerPoll ∧
            (ops : Multiset Nat) ≤ s.posted side then
          some ((s.take side ops).setStack thread
            (.dispatch user side ops :: (frame.afterPoll config ops.length ++ rest)))
        else none
      | .canceled op =>
        if side = .recvs ∧ op ∈ s.rx ∧ op ∈ s.canceling then
          match s.posts[op]? with
          | none => none
          | some post =>
            if post.kind ≠ .sharedRecv ∧ s.isAlive post.comm = false then
              some (s.fail .dangling)
            else
              some ((s.handleCancelled op post).setStack thread
                (frame.afterPoll config 0 ++ rest))
        else none
      | .failed => some (s.fail .terminated)

def hasReachedRecursionDepth (config : Config) (s : State) (c : CommunicatorImpl) (kind : Kind) :
    Bool :=
  match kind with
  | .sharedRecv => config.recursionDepth < s.recursionDepth
  | _ => config.recursionDepth < c.recursionDepth

/-- The guard under which a completion handler runs the callback itself, if it does: a
shared receive for whoever polls, any other operation only for its communicator. -/
def inplaceVia (config : Config) (user : Option Nat) (post : Post) (c : CommunicatorImpl)
    (s : State) : Option Via :=
  if s.hasReachedRecursionDepth config c post.kind then none
  else
    match post.kind with
    | .sharedRecv => some .context
    | _ => if user = some post.comm then some (.inplace post.comm) else none

/-- `handle_tagged_send_completion` and `handle_tagged_recv_completion` of one entry. -/
def handle (config : Config) (thread : Nat) (user : Option Nat) (side : Side) (op : Nat)
    (entries : List Nat) (rest : List Frame) (s : State) : Option State :=
  match s.posts[op]? with
  | none => none
  | some post =>
    match s.comms[post.comm]? with
    | none => none
    | some c =>
      if c.alive then
        match s.inplaceVia config user post c with
        | some via =>
          some (s.setStack thread (.invoke op via :: .dispatch user side entries :: rest))
        | none =>
          some (s.setStack thread (.park op side :: .dispatch user side entries :: rest))
      else some (s.fail .dangling)

def pushCb (post : Post) (side : Side) (op : Nat) (s : State) : State :=
  match post.kind, side with
  | .sharedRecv, _ => { s with recvCbQueue := s.recvCbQueue ++ [op] }
  | _, .sends => s.modifyComm post.comm (.pushSend op)
  | _, .recvs => s.modifyComm post.comm (.pushRecv op)

def park (thread op : Nat) (side : Side) (rest : List Frame) (s : State) : Option State :=
  match s.posts[op]? with
  | none => none
  | some post =>
    if s.isAlive post.comm then some ((s.pushCb post side op).setStack thread rest)
    else some (s.fail .dangling)

@[simps -fullyApplied]
def releaseSelfRef (op : Nat) (s : State) : State :=
  { s with heap := Function.update s.heap op { s.heap op with selfPtr := false } }

def start (thread op : Nat) (via : Via) (rest : List Frame) (s : State) : State :=
  let called := Event.called (s.heap op).cb (s.heap op).rank (s.heap op).tag
  (((s.incRecursion via).releaseSelfRef op).log called).setStack thread (.callback op via :: rest)

@[simps -fullyApplied]
def finishCb (op : Nat) (s : State) : State :=
  { s with
    scheduled := countDown s.scheduled (s.heap op).scheduled
    heap := Function.update s.heap op { s.heap op with ready := true }
    history := .returned (s.heap op).cb :: s.history }

def returnCallback (thread op : Nat) (via : Via) (rest : List Frame) (s : State) : State :=
  match via with
  | .inject comm =>
    ((s.log (.returned op)).decRecursion (.inject comm)).setStack thread rest
  | via => ((s.finishCb op).decRecursion via).setStack thread rest

def cbQueue (comm : Nat) (s : State) : Drain → List Nat
  | .sends => (s.comms[comm]?.map CommunicatorImpl.sendCbQueue).getD []
  | .recvs => (s.comms[comm]?.map CommunicatorImpl.recvCbQueue).getD []
  | .shared => s.recvCbQueue

def setCbQueue (comm : Nat) (stage : Drain) (queue : List Nat) (s : State) : State :=
  match stage with
  | .sends => s.modifyComm comm fun c => { c with sendCbQueue := queue }
  | .recvs => s.modifyComm comm fun c => { c with recvCbQueue := queue }
  | .shared => { s with recvCbQueue := queue }

def drainUser (comm : Nat) : Drain → Option Nat
  | .shared => none
  | _ => some comm

/-- `clear_callback_queues` takes the next request, or goes on to the next queue. -/
def drain (thread comm : Nat) (stage : Drain) (destroying : Bool) (rest : List Frame)
    (s : State) : State :=
  match s.cbQueue comm stage with
  | op :: queue =>
    (s.setCbQueue comm stage queue).setStack thread
      (.invoke op (.queue (drainUser comm stage)) ::
        .call (some comm) (.clear stage destroying) :: rest)
  | [] =>
    match stage.next with
    | some next => s.setStack thread (.call (some comm) (.clear next destroying) :: rest)
    | none =>
      if destroying then
        (s.modifyComm comm fun c => { c with alive := false }).setStack thread rest
      else s.setStack thread rest

end State

/-- The pops of one turn of the loop in `cancel_recv`, up to the request looked for or the
end of the queue.  Requests of other cancels collect on a stack and are then put back. -/
def popUntil (op : Nat) : (queue temp : List Nat) → Bool × List Nat
  | [], temp => (false, temp)
  | next :: queue, temp =>
    if next = op then (true, queue ++ temp) else popUntil op queue (next :: temp)

namespace State

def cancelQueue (s : State) : Option Nat → List Nat
  | some comm => (s.comms[comm]?.map CommunicatorImpl.recvCbCancel).getD []
  | none => s.recvCbCancel

def setCancelQueue (user : Option Nat) (queue : List Nat) (s : State) : State :=
  match user with
  | some comm => s.modifyComm comm fun c => { c with recvCbCancel := queue }
  | none => { s with recvCbCancel := queue }

@[simps -fullyApplied]
def setCanceled (op : Nat) (s : State) : State :=
  { s with
    scheduled := countDown s.scheduled (s.heap op).scheduled
    heap := Function.update s.heap op { s.heap op with ready := true, canceled := true }
    history := .canceled (s.heap op).cb :: s.history }

/-- The receive was found among the cancelled ones: `cancel_recv` returns true. -/
def withdraw (thread : Nat) (user : Option Nat) (op : Nat) (queue : List Nat)
    (rest : List Frame) (s : State) : State :=
  let withdrawn := ((s.setCancelQueue user queue).releaseSelfRef op).setCanceled op
  (withdrawn.returnCancel op true).setStack thread rest

def scanCancel (thread : Nat) (user : Option Nat) (op : Nat) (rest : List Frame) (s : State) :
    State :=
  match popUntil op (s.cancelQueue user) [] with
  | (true, queue) => s.withdraw thread user op queue rest
  | (false, queue) => (s.setCancelQueue user queue).setStack thread (.call user (.cancel op) :: rest)

@[simps -fullyApplied]
def fiCancel (op : Nat) (s : State) : State :=
  { s with canceling := op :: s.canceling }

/-- `cancel` of a request that is not ready, if `fi_cancel` accepts it. -/
def beginCancel (thread op : Nat) (post : Post) (stack : List Frame) (s : State) : State :=
  (s.fiCancel op).setStack thread (.call (userOf post) (.cancel op) :: stack)

end State

inductive Act
  | getCommunicator
  | send (comm : Nat) (dst : RankType) (tag : TagType) (size : Nat)
  | recv (comm : Nat) (src : RankType) (tag : TagType)
  | sharedRecv (comm : Nat) (src : RankType) (tag : TagType)
  | progress (comm : Nat)
  | contextProgress
  | cancel (op : Nat) (accepted : Bool)
  | destroy (comm : Nat)
  | callbackReturns
  | fi (answer : FiAnswer)
  | read (answer : CqRead)
  | advance
deriving DecidableEq, Repr

structure Action where
  thread : Nat
  act : Act
deriving DecidableEq, Repr

def inUserCode : List Frame → Bool
  | [] => true
  | .callback _ _ :: _ => true
  | _ => false

def Frame.isCallOn (comm : Nat) : Frame → Bool
  | .call user _ => user = some comm
  | _ => false

namespace State

def usable (s : State) (thread comm : Nat) : Bool :=
  match s.comms[comm]? with
  | some c => c.alive && c.owner = thread
  | none => false

def userCall (config : Config) (thread : Nat) (stack : List Frame) (s : State) :
    Act → Option State
  | .getCommunicator => some (s.getCommunicator thread)
  | .send comm dst tag size =>
    if s.usable thread comm then
      if size ≤ config.txInjectSize then
        some (s.setStack thread (.call (some comm) (.inject dst tag) :: stack))
      else some (s.beginPost thread comm .send dst tag stack)
    else none
  | .recv comm src tag =>
    if s.usable thread comm then some (s.beginPost thread comm .recv src tag stack) else none
  | .sharedRecv comm src tag =>
    if s.usable thread comm then some (s.beginPost thread comm .sharedRecv src tag stack)
    else none
  | .progress comm =>
    if s.usable thread comm then
      some (s.setStack thread
        (.work (some comm) .sends false :: .call (some comm) (.clear .sends false) :: stack))
    else none
  | .contextProgress =>
    some (s.setStack thread (.work none .sends false :: .call none .leave :: stack))
  | .cancel op accepted =>
    match s.posts[op]? with
    | none => none
    | some post =>
      if post.inplace ∨ post.kind = .send ∨
          post.kind = .recv ∧ s.usable thread post.comm = false then none
      else if (s.heap op).ready ∨ accepted = false then some (s.returnCancel op false)
      else some (s.beginCancel thread op post stack)
  | .destroy comm =>
    if s.usable thread comm then
      if stack.any (Frame.isCallOn comm) then some (s.fail .destroyedInUse)
      else some (s.setStack thread (.call (some comm) (.clear .sends true) :: stack))
    else none
  | _ => none

def advance (config : Config) (thread : Nat) (s : State) : List Frame → Option State
  | .dispatch user side (op :: entries) :: rest =>
    s.handle config thread user side op entries rest
  | .dispatch _ _ [] :: rest => some (s.setStack thread rest)
  | .invoke op via :: rest => some (s.start thread op via rest)
  | .park op side :: rest => s.park thread op side rest
  | .call (some comm) (.clear stage destroying) :: rest =>
    some (s.drain thread comm stage destroying rest)
  | .call user (.scan op) :: rest => some (s.scanCancel thread user op rest)
  | .call _ .leave :: rest => some (s.setStack thread rest)
  | _ => none

end State

def step (config : Config) (s : State) (action : Action) : Option State :=
  if s.fault.isSome then none
  else
    match s.threads[action.thread]? with
    | none => none
    | some stack =>
      match action.act with
      | .fi answer => s.executeFi config action.thread answer stack
      | .read answer => s.readCq config action.thread answer stack
      | .advance => s.advance config action.thread stack
      | .callbackReturns =>
        match stack with
        | .callback op via :: rest => some (s.returnCallback action.thread op via rest)
        | _ => none
      | call => if inUserCode stack then s.userCall config action.thread stack call else none

end Oomph.Libfabric
