import Oomph.Ucx.Communicator

namespace Oomph.Ucx

def Act.isCancel : Act → Bool
  | .cancel _ => true
  | _ => false

def Answer.isError : Answer → Bool
  | .errorPtr => true
  | .truncated _ => true
  | .callback _ .failed => true
  | _ => false

def Act.isError : Act → Bool
  | .ucx answer => answer.isError
  | _ => false

/-- UCX reports an error for a receive. -/
def State.failsRecv (s : State) (action : Action) : Bool :=
  match action.act, s.threads[action.thread]? with
  | .ucx .errorPtr, some (.call _ (.post _ _ _) :: _) => true
  | .ucx (.truncated _), _ => true
  | .ucx (.callback request .failed), _ => request.worker.isNone
  | _, _ => false

def Frame.isCancel : Frame → Bool
  | .call _ (.cancelLock _) => true
  | .call _ (.cancelLoop _) => true
  | .call _ (.cancelScan _) => true
  | .call _ (.cancelFree _) => true
  | _ => false

/-- No thread is in a cancel, and UCX was not asked to cancel a receive. -/
structure State.Uncanceled (s : State) : Prop where
  frames : ∀ stack ∈ s.threads, ∀ frame ∈ stack, frame.isCancel = false
  canceling : s.canceling = []

def Code.receives : Code → Bool
  | .recvLoop _ => true
  | .cancelLoop _ => true
  | _ => false

inductive Control (config : Config) (s : State) (thread : Nat) :
    Act → List Frame → List Frame → Prop
  | send (comm : Nat) (dst : RankType) (tag : TagType) (stack : List Frame) :
      inUserCode stack = true → s.usable thread comm = true →
      Control config s thread (.send comm dst tag) stack
        (.call (some comm) (.send dst tag) :: stack)
  | recv (act : Act) (comm : Nat) (kind : Kind) (src : RankType) (tag : TagType)
      (stack : List Frame) :
      inUserCode stack = true → s.usable thread comm = true →
      Control config s thread act stack (.call (some comm) (.lock kind src tag) :: stack)
  | progress (comm : Nat) (stack : List Frame) :
      inUserCode stack = true → s.usable thread comm = true →
      Control config s thread (.progress comm) stack (.call (some comm) .sendLoop :: stack)
  | contextProgress (stack : List Frame) : inUserCode stack = true →
      Control config s thread .contextProgress stack (.call none (.tryLock 1) :: stack)
  | sendError (comm : Nat) (dst : RankType) (tag : TagType) (rest : List Frame) :
      Control config s thread (.ucx .errorPtr) (.call (some comm) (.send dst tag) :: rest) rest
  | recvError (comm : Nat) (kind : Kind) (src : RankType) (tag : TagType) (rest : List Frame) :
      Control config s thread (.ucx .errorPtr) (.call (some comm) (.post kind src tag) :: rest) rest
  | unguarded (user : Option Nat) (kind : Kind) (src : RankType) (tag : TagType)
      (rest : List Frame) : config.threadSafe = false →
      Control config s thread .advance (.call user (.lock kind src tag) :: rest)
        (.call user (.post kind src tag) :: rest)
  | beyondDepth (comm : Nat) (kind : Kind) (src : RankType) (tag : TagType) (ptr : Nat)
      (c : CommunicatorImpl) (rest : List Frame) : s.comms[comm]? = some c →
      s.hasReachedRecursionDepth config c kind = true →
      Control config s thread .advance (.call (some comm) (.early kind src tag ptr) :: rest)
        (.call (some comm) (.defer kind src tag ptr) :: rest)
  | withinDepth (comm : Nat) (kind : Kind) (src : RankType) (tag : TagType) (ptr : Nat)
      (c : CommunicatorImpl) (rest : List Frame) : s.comms[comm]? = some c →
      s.hasReachedRecursionDepth config c kind = false →
      Control config s thread .advance (.call (some comm) (.early kind src tag ptr) :: rest)
        (.call (some comm) (.run kind src tag) :: rest)
  | sendProgressed (comm : Nat) (more : Bool) (rest : List Frame) :
      Control config s thread (.ucx (.progressed more)) (.call (some comm) .sendLoop :: rest)
        (.call (some comm) (if more then .sendLoop else State.afterSendLoop config) :: rest)
  | recvProgressed (comm tries : Nat) (more : Bool) (rest : List Frame) :
      config.threadSafe = false →
      Control config s thread (.ucx (.progressed more)) (.call (some comm) (.recvLoop tries) :: rest)
        (.call (some comm) (if more then .recvLoop tries else .clear (.first (some comm))) :: rest)
  | busy (user : Option Nat) (tries holder : Nat) (rest : List Frame) : s.mutex = some holder →
      Control config s thread .advance (.call user (.tryLock (tries + 1)) :: rest)
        (.call user (.tryLock tries) :: rest)
  | noMoreTries (user : Option Nat) (rest : List Frame) :
      Control config s thread .advance (.call user (.tryLock 0) :: rest)
        (.call user (.clear (.first user)) :: rest)
  | left (user : Option Nat) (rest : List Frame) :
      Control config s thread .advance (.call user .leave :: rest) rest
  | nextQueue (user : Option Nat) (stage next : Drain) (rest : List Frame) :
      s.reqQueue stage = [] → stage.next config = some next →
      Control config s thread .advance (.call user (.clear stage) :: rest)
        (.call user (.clear next) :: rest)
  | cleared (user : Option Nat) (rest : List Frame) : s.reqQueue .shared = [] →
      Control config s thread .advance (.call user (.clear .shared) :: rest) rest

inductive Locks (config : Config) : List Frame → List Frame → Prop
  | recv (user : Option Nat) (kind : Kind) (src : RankType) (tag : TagType) (rest : List Frame) :
      config.threadSafe = true →
      Locks config (.call user (.lock kind src tag) :: rest) (.call user (.post kind src tag) :: rest)
  | progress (user : Option Nat) (tries : Nat) (rest : List Frame) :
      Locks config (.call user (.tryLock (tries + 1)) :: rest) (.call user (.recvLoop tries) :: rest)

inductive Effect (config : Config) (s : State) (thread : Nat) : Act → State → Prop
  | stale (comm : Nat) (kind : Kind) (src : RankType) (tag : TagType) (ptr : Nat)
      (rest : List Frame) :
      s.threads[thread]? = some (.call (some comm) (.post kind src tag) :: rest) → ptr ∉ s.inUse →
      s.requestData ptr ≠ .empty → Effect config s thread (.ucx (.early ptr)) (s.fail .staleData)
  | nullSend (comm : Nat) (request : UcxRequest) (rest : List Frame) :
      s.threads[thread]? = some (.call (some comm) .sendLoop :: rest) → request ∈ s.inFlight →
      request.worker = some comm → (s.requestData request.ptr).get = none →
      Effect config s thread (.ucx (.callback request .ok)) (s.fail .nullRequest)
  | badFree (request : UcxRequest) (rest : List Frame) :
      s.threads[thread]? = some (.release request :: rest) → request.ptr ∉ s.inUse →
      Effect config s thread .advance
        ((s.logPtr (.freed request.ptr (some request.op))).fail .useAfterFree)
  | control (act : Act) (stack moved : List Frame) : s.threads[thread]? = some stack →
      Control config s thread act stack moved →
      Effect config s thread act (s.setStack thread moved)
  | getCommunicator : Effect config s thread .getCommunicator (s.addCommunicator thread)
  | lock (stack moved : List Frame) : s.threads[thread]? = some stack → s.mutex = none →
      Locks config stack moved →
      Effect config s thread .advance ((s.setMutex (some thread)).setStack thread moved)
  | unlock (user : Option Nat) (tries : Nat) (more : Bool) (rest : List Frame) :
      s.threads[thread]? = some (.call user (.recvLoop tries) :: rest) →
      config.threadSafe = true ∨ user = none →
      Effect config s thread (.ucx (.progressed more)) ((s.setMutex none).setStack thread
        (.call user (if more then .tryLock tries else .clear (.first user)) :: rest))
  | runSend (comm : Nat) (dst : RankType) (tag : TagType) (c : CommunicatorImpl)
      (rest : List Frame) :
      s.threads[thread]? = some (.call (some comm) (.send dst tag) :: rest) →
      s.comms[comm]? = some c → c.recursionDepth ≤ config.recursionDepth →
      Effect config s thread (.ucx .immediate) (s.runSend thread comm dst tag rest)
  | queueSend (comm : Nat) (dst : RankType) (tag : TagType) (c : CommunicatorImpl)
      (rest : List Frame) :
      s.threads[thread]? = some (.call (some comm) (.send dst tag) :: rest) →
      s.comms[comm]? = some c → config.recursionDepth < c.recursionDepth →
      Effect config s thread (.ucx .immediate) (s.queueSend thread comm dst tag rest)
  | submitSend (comm : Nat) (dst : RankType) (tag : TagType) (ptr : Nat) (rest : List Frame) :
      s.threads[thread]? = some (.call (some comm) (.send dst tag) :: rest) → ptr ∉ s.inUse →
      Effect config s thread (.ucx (.inProgress ptr)) (s.submitSend thread comm dst tag ptr rest)
  | submitRecv (comm : Nat) (kind : Kind) (src : RankType) (tag : TagType) (ptr : Nat)
      (rest : List Frame) :
      s.threads[thread]? = some (.call (some comm) (.post kind src tag) :: rest) → ptr ∉ s.inUse →
      Effect config s thread (.ucx (.inProgress ptr))
        (s.submitRecv config thread comm kind src tag ptr rest)
  | early (comm : Nat) (kind : Kind) (src : RankType) (tag : TagType) (ptr : Nat)
      (rest : List Frame) :
      s.threads[thread]? = some (.call (some comm) (.post kind src tag) :: rest) → ptr ∉ s.inUse →
      s.requestData ptr = .empty → Effect config s thread (.ucx (.early ptr))
        (((s.completeEarly ptr).unlock config).setStack thread
          (.call (some comm) (.early kind src tag ptr) :: rest))
  | truncated (comm : Nat) (kind : Kind) (src : RankType) (tag : TagType) (ptr : Nat)
      (rest : List Frame) :
      s.threads[thread]? = some (.call (some comm) (.post kind src tag) :: rest) → ptr ∉ s.inUse →
      Effect config s thread (.ucx (.truncated ptr)) ((s.allocate ptr).setStack thread rest)
  | runEarly (comm : Nat) (kind : Kind) (src : RankType) (tag : TagType) (rest : List Frame) :
      s.threads[thread]? = some (.call (some comm) (.run kind src tag) :: rest) →
      Effect config s thread .advance (s.runEarly thread comm kind src tag rest)
  | deferEarly (comm : Nat) (kind : Kind) (src : RankType) (tag : TagType) (ptr : Nat)
      (rest : List Frame) :
      s.threads[thread]? = some (.call (some comm) (.defer kind src tag ptr) :: rest) →
      Effect config s thread .advance (s.deferEarly thread comm kind src tag ptr rest)
  | sendOk (comm : Nat) (request : UcxRequest) (op : Nat) (rest : List Frame) :
      s.threads[thread]? = some (.call (some comm) .sendLoop :: rest) → request ∈ s.inFlight →
      request.worker = some comm → (s.requestData request.ptr).get = some op →
      Effect config s thread (.ucx (.callback request .ok)) ((s.takeRequest request).setStack thread
        (.invoke op (.sent comm) :: .release request :: .call (some comm) .sendLoop :: rest))
  | sendFailed (comm : Nat) (request : UcxRequest) (rest : List Frame) :
      s.threads[thread]? = some (.call (some comm) .sendLoop :: rest) → request ∈ s.inFlight →
      request.worker = some comm → Effect config s thread (.ucx (.callback request .failed))
        (((s.takeRequest request).drop request.op).setStack thread
          (.release request :: .call (some comm) .sendLoop :: rest))
  | recvOwn (user : Option Nat) (code : Code) (request : UcxRequest) (op : Nat)
      (shared : Option Nat) (rest : List Frame) :
      s.threads[thread]? = some (.call user code :: rest) → code.receives = true →
      request ∈ s.inFlight →
      request.worker = none → s.requestData request.ptr = { req := some op, sharedReq := shared } →
      config.threadSafe = true →
      Effect config s thread (.ucx (.callback request .ok))
        ((((s.takeRequest request).complete request.op).release request).enqueueRecv
          (some (s.heap op).comm) op)
  | recvDirect (user : Option Nat) (code : Code) (request : UcxRequest) (op : Nat)
      (shared : Option Nat) (rest : List Frame) :
      s.threads[thread]? = some (.call user code :: rest) → code.receives = true →
      request ∈ s.inFlight →
      request.worker = none → s.requestData request.ptr = { req := some op, sharedReq := shared } →
      config.threadSafe = false →
      Effect config s thread (.ucx (.callback request .ok))
        ((((s.takeRequest request).complete request.op).release request).setStack thread
          (.invoke op (.received (s.heap op).comm) :: .call user code :: rest))
  | recvShared (user : Option Nat) (code : Code) (request : UcxRequest) (op : Nat)
      (rest : List Frame) :
      s.threads[thread]? = some (.call user code :: rest) → code.receives = true →
      request ∈ s.inFlight →
      request.worker = none → s.requestData request.ptr = { req := none, sharedReq := some op } →
      Effect config s thread (.ucx (.callback request .ok))
        ((((s.takeRequest request).complete request.op).release request).enqueueRecv none op)
  | recvEmpty (user : Option Nat) (code : Code) (request : UcxRequest) (rest : List Frame) :
      s.threads[thread]? = some (.call user code :: rest) → code.receives = true →
      request ∈ s.inFlight →
      request.worker = none → s.requestData request.ptr = .empty →
      Effect config s thread (.ucx (.callback request .ok))
        ((s.takeRequest request).drop request.op)
  | recvFailed (user : Option Nat) (code : Code) (request : UcxRequest) (rest : List Frame) :
      s.threads[thread]? = some (.call user code :: rest) → code.receives = true →
      request ∈ s.inFlight →
      request.worker = none → Effect config s thread (.ucx (.callback request .failed))
        (((s.takeRequest request).drop request.op).setStack thread rest)
  | start (op : Nat) (via : Via) (rest : List Frame) :
      s.threads[thread]? = some (.invoke op via :: rest) →
      Effect config s thread .advance (s.start thread op via rest)
  | returnCallback (op : Nat) (via : Via) (rest : List Frame) :
      s.threads[thread]? = some (.callback op via :: rest) →
      Effect config s thread .callbackReturns (s.returnCallback thread op via rest)
  | release (request : UcxRequest) (rest : List Frame) :
      s.threads[thread]? = some (.release request :: rest) → request.ptr ∈ s.inUse →
      Effect config s thread .advance ((s.release request).setStack thread rest)
  | pop (user : Option Nat) (stage : Drain) (op : Nat) (queue : List Nat) (rest : List Frame) :
      s.threads[thread]? = some (.call user (.clear stage) :: rest) →
      s.reqQueue stage = op :: queue →
      Effect config s thread .advance ((s.setReqQueue stage queue).setStack thread
        (.invoke op (.queue stage.user) :: .call user (.clear stage) :: rest))

def Code.cancels : Code → Option Nat
  | .cancelLock op => some op
  | .cancelLoop op => some op
  | .cancelScan op => some op
  | .cancelFree op => some op
  | _ => none

@[simps -fullyApplied]
def State.locked (config : Config) (thread : Nat) (s : State) : State :=
  { s with mutex := if config.threadSafe then some thread else s.mutex }

inductive CancelEffect (config : Config) (s : State) (thread : Nat) : Act → State → Prop
  | refuse (op : Nat) (post : Post) : s.posts[op]? = some post → post.inplace = false →
      (s.heap op).ready = true →
      CancelEffect config s thread (.cancel op) (s.returnCancel op false)
  | begin (op : Nat) (post : Post) (stack : List Frame) : s.threads[thread]? = some stack →
      inUserCode stack = true → s.posts[op]? = some post → post.inplace = false →
      post.kind ≠ .send → (post.kind = .recv → s.usable thread post.comm = true) →
      (s.heap op).ready = false →
      CancelEffect config s thread (.cancel op)
        (s.setStack thread (.call (userOf post.comm post.kind) (.cancelLock op) :: stack))
  | bad (user : Option Nat) (code : Code) (op : Nat) (rest : List Frame) (t : State) :
      s.threads[thread]? = some (.call user code :: rest) →
      code = .cancelLock op ∨ code = .cancelFree op ∨
        code = .cancelScan op ∧ s.foundCanceled thread user op = true →
      (∀ ptr ∈ s.inUse, (s.heap op).ucxPtr ≠ some ptr) → t.fault.isSome = true →
      CancelEffect config s thread .advance t
  | ask (user : Option Nat) (op ptr : Nat) (rest : List Frame) :
      s.threads[thread]? = some (.call user (.cancelLock op) :: rest) →
      (config.threadSafe = true → s.mutex = none) → (s.heap op).ucxPtr = some ptr →
      ptr ∈ s.inUse → CancelEffect config s thread .advance
        ((((s.locked config thread).logPtr (.used ptr (some op))).requestCancel ptr).setStack thread
          (.call user (.cancelLoop op) :: rest))
  | sendCanceled (comm : Nat) (request : UcxRequest) (rest : List Frame) :
      s.threads[thread]? = some (.call (some comm) .sendLoop :: rest) → request ∈ s.inFlight →
      request.worker = some comm → request.ptr ∈ s.canceling →
      CancelEffect config s thread (.ucx (.callback request .canceled))
        (((s.takeRequest request).drop request.op).setStack thread
          (.release request :: .call (some comm) .sendLoop :: rest))
  | canceledOwn (user : Option Nat) (code : Code) (request : UcxRequest) (op : Nat)
      (shared : Option Nat) (rest : List Frame) :
      s.threads[thread]? = some (.call user code :: rest) → code.receives = true →
      request ∈ s.inFlight → request.worker = none → request.ptr ∈ s.canceling →
      s.requestData request.ptr = { req := some op, sharedReq := shared } →
      CancelEffect config s thread (.ucx (.callback request .canceled))
        ((s.takeRequest request).enqueueCancelRecv (some (s.heap op).comm) op)
  | canceledShared (user : Option Nat) (code : Code) (request : UcxRequest) (op : Nat)
      (rest : List Frame) :
      s.threads[thread]? = some (.call user code :: rest) → code.receives = true →
      request ∈ s.inFlight → request.worker = none → request.ptr ∈ s.canceling →
      s.requestData request.ptr = { req := none, sharedReq := some op } →
      CancelEffect config s thread (.ucx (.callback request .canceled))
        ((s.takeRequest request).enqueueCancelRecv none op)
  | canceledNull (user : Option Nat) (code : Code) (request : UcxRequest) (rest : List Frame) :
      s.threads[thread]? = some (.call user code :: rest) → code.receives = true →
      request ∈ s.inFlight → request.ptr ∈ s.canceling → s.requestData request.ptr = .empty →
      CancelEffect config s thread (.ucx (.callback request .canceled)) (s.fail .nullRequest)
  | again (user : Option Nat) (op : Nat) (rest : List Frame) :
      s.threads[thread]? = some (.call user (.cancelLoop op) :: rest) →
      CancelEffect config s thread (.ucx (.progressed true)) s
  | looped (user : Option Nat) (op : Nat) (rest : List Frame) :
      s.threads[thread]? = some (.call user (.cancelLoop op) :: rest) →
      CancelEffect config s thread (.ucx (.progressed false))
        ((if user.isSome then s.unlock config else s).setStack thread
          (.call user (.cancelScan op) :: rest))
  | missed (user : Option Nat) (op : Nat) (rest : List Frame) :
      s.threads[thread]? = some (.call user (.cancelScan op) :: rest) →
      s.foundCanceled thread user op = false →
      CancelEffect config s thread .advance
        (((s.takeCanceled config thread user op).returnCancel op false).setStack thread rest)
  | withdraw (user : Option Nat) (op ptr : Nat) (rest : List Frame) :
      s.threads[thread]? = some (.call user (.cancelScan op) :: rest) →
      s.foundCanceled thread user op = true → (s.heap op).ucxPtr = some ptr → ptr ∈ s.inUse →
      CancelEffect config s thread .advance
        ((((((s.takeCanceled config thread user op).releaseSelfRef op).setCanceled op).logPtr
          (.used ptr (some op))).destroyData ptr).setStack thread (.call user (.cancelFree op) :: rest))
  | free (user : Option Nat) (op ptr : Nat) (rest : List Frame) :
      s.threads[thread]? = some (.call user (.cancelFree op) :: rest) →
      (config.threadSafe = true → s.mutex = none) → (s.heap op).ucxPtr = some ptr →
      ptr ∈ s.inUse → CancelEffect config s thread .advance
        ((((s.logPtr (.freed ptr (some op))).requestFree ptr).returnCancel op true).setStack thread rest)

variable {config : Config} {s t : State} {thread : Nat} {stack rest : List Frame}

namespace State

theorem failsRecv_errorPtr {user : Option Nat} {kind : Kind} {src : RankType} {tag : TagType}
    (found : s.threads[thread]? = some (.call user (.post kind src tag) :: rest)) :
    s.failsRecv ⟨thread, .ucx .errorPtr⟩ = true := by
  simp [State.failsRecv, found]

theorem failsRecv_failed {request : UcxRequest} (worker : request.worker = none) :
    s.failsRecv ⟨thread, .ucx (.callback request .failed)⟩ = true := by
  simp [State.failsRecv, worker]

theorem locked_of_threadSafe (safe : config.threadSafe = true) :
    s.locked config thread = s.setMutex (some thread) := by
  simp [locked, setMutex, safe]

theorem locked_of_single (single : config.threadSafe = false) : s.locked config thread = s := by
  simp [locked, single]

theorem lock_eq_some (taken : s.lock config thread = some t) :
    (config.threadSafe = true → s.mutex = none) ∧ t = s.locked config thread := by
  unfold lock at taken
  split at taken
  · rename_i safe
    split at taken
    · rename_i free
      cases taken
      exact ⟨fun _ => free, (locked_of_threadSafe safe).symm⟩
    · cases taken
  · rename_i single
    cases taken
    exact ⟨fun safe => absurd safe single, (locked_of_single (by simpa using single)).symm⟩

/-- A pointer is used as UCX allows it, or after the request was freed. -/
theorem withRequest_cases (op : Nat) (event : Nat → Option Nat → PtrEvent)
    (go : Nat → State → State) :
    (∃ ptr ∈ s.inUse, (s.heap op).ucxPtr = some ptr ∧
      s.withRequest op event go = go ptr (s.logPtr (event ptr (some op)))) ∨
    (∀ ptr ∈ s.inUse, (s.heap op).ucxPtr ≠ some ptr) ∧
      (s.withRequest op event go).fault.isSome = true := by
  unfold withRequest
  cases held : (s.heap op).ucxPtr with
  | none => exact .inr ⟨nofun, rfl⟩
  | some ptr =>
    by_cases live : ptr ∈ s.inUse
    · exact .inl ⟨ptr, live, rfl, by simp [live]⟩
    · refine .inr ⟨fun other member same => ?_, by simp [live]⟩
      cases same
      exact live member

end State

section

variable (found : s.threads[thread]? = some stack)

include found

private theorem send_effect {comm : Nat} {dst : RankType} {tag : TagType} {answer : Answer}
    (shape : stack = .call (some comm) (.send dst tag) :: rest)
    (taken : s.answered config thread answer stack = some t) :
    Effect config s thread (.ucx answer) t := by
  subst shape
  cases answer with
  | immediate =>
    dsimp only [State.answered] at taken
    cases lookup : s.comms[comm]? with
    | none => simp [lookup] at taken
    | some c =>
      simp only [lookup] at taken
      split at taken
      · rename_i reached
        cases taken
        exact .queueSend comm dst tag c rest found lookup
          (by simpa [State.hasReachedRecursionDepth] using reached)
      · rename_i within
        cases taken
        exact .runSend comm dst tag c rest found lookup
          (by simpa [State.hasReachedRecursionDepth] using within)
  | inProgress ptr =>
    dsimp only [State.answered] at taken
    simp only [Option.ite_none_left_eq_some] at taken
    obtain ⟨fresh, taken⟩ := taken
    cases taken
    exact .submitSend comm dst tag ptr rest found fresh
  | errorPtr =>
    cases taken
    exact .control _ _ _ found (.sendError comm dst tag rest)
  | _ => cases taken

private theorem post_effect {comm : Nat} {kind : Kind} {src : RankType} {tag : TagType}
    {answer : Answer} (shape : stack = .call (some comm) (.post kind src tag) :: rest)
    (taken : s.answered config thread answer stack = some t) :
    Effect config s thread (.ucx answer) t := by
  subst shape
  cases answer with
  | inProgress ptr =>
    dsimp only [State.answered] at taken
    simp only [Option.ite_none_left_eq_some] at taken
    obtain ⟨fresh, taken⟩ := taken
    cases taken
    exact .submitRecv comm kind src tag ptr rest found fresh
  | early ptr =>
    dsimp only [State.answered] at taken
    simp only [Option.ite_none_left_eq_some] at taken
    obtain ⟨fresh, taken⟩ := taken
    split at taken
    · rename_i clean
      cases taken
      exact .early comm kind src tag ptr rest found fresh clean
    · rename_i dirty
      cases taken
      exact .stale comm kind src tag ptr rest found fresh dirty
  | truncated ptr =>
    dsimp only [State.answered] at taken
    simp only [Option.ite_none_left_eq_some] at taken
    obtain ⟨fresh, taken⟩ := taken
    cases taken
    exact .truncated comm kind src tag ptr rest found fresh
  | errorPtr =>
    cases taken
    exact .control _ _ _ found (.recvError comm kind src tag rest)
  | _ => cases taken

private theorem sendLoop_effect {comm : Nat} {answer : Answer}
    (shape : stack = .call (some comm) .sendLoop :: rest)
    (taken : s.answered config thread answer stack = some t) :
    Effect config s thread (.ucx answer) t ∨ CancelEffect config s thread (.ucx answer) t := by
  subst shape
  cases answer with
  | callback request status =>
    dsimp only [State.answered] at taken
    simp only [Option.ite_none_right_eq_some] at taken
    obtain ⟨may, taken⟩ := taken
    obtain ⟨inFlight, worker, asked⟩ := of_decide_eq_true may
    cases taken
    cases status with
    | ok =>
      left
      cases get : (s.requestData request.ptr).get with
      | some op =>
        simp only [State.sendCallback, get]
        exact .sendOk comm request op rest found inFlight worker get
      | none =>
        simp only [State.sendCallback, get]
        exact .nullSend comm request rest found inFlight worker get
    | canceled => exact .inr (.sendCanceled comm request rest found inFlight worker (asked rfl))
    | failed => exact .inl (.sendFailed comm request rest found inFlight worker)
  | progressed more =>
    cases taken
    exact .inl (.control _ _ _ found (.sendProgressed comm more rest))
  | _ => cases taken

private theorem recvCallback_effect {user : Option Nat} {code : Code} {request : UcxRequest}
    {status : Status} (shape : stack = .call user code :: rest) (receives : code.receives = true)
    (may : s.mayComplete none request status = true) :
    Effect config s thread (.ucx (.callback request status))
      (s.recvCallback config thread request status (.call user code) rest) ∨
    CancelEffect config s thread (.ucx (.callback request status))
      (s.recvCallback config thread request status (.call user code) rest) := by
  subst shape
  obtain ⟨inFlight, worker, asked⟩ := of_decide_eq_true may
  cases status with
  | ok =>
    left
    simp only [State.recvCallback]
    split
    · rename_i op shared data
      split
      · exact .recvOwn user code request op shared rest found receives inFlight worker data ‹_›
      · rename_i single
        exact .recvDirect user code request op shared rest found receives inFlight worker data
          (by simpa using single)
    · rename_i op data
      exact .recvShared user code request op rest found receives inFlight worker data
    · rename_i data
      exact .recvEmpty user code request rest found receives inFlight worker data
  | canceled =>
    right
    simp only [State.recvCallback]
    split
    · rename_i op shared data
      exact .canceledOwn user code request op shared rest found receives inFlight worker
        (asked rfl) data
    · rename_i op data
      exact .canceledShared user code request op rest found receives inFlight worker
        (asked rfl) data
    · rename_i data
      exact .canceledNull user code request rest found receives inFlight (asked rfl) data
  | failed => exact .inl (.recvFailed user code request rest found receives inFlight worker)

private theorem recvLoop_effect {user : Option Nat} {tries : Nat} {answer : Answer}
    (shape : stack = .call user (.recvLoop tries) :: rest)
    (taken : s.answered config thread answer stack = some t) :
    Effect config s thread (.ucx answer) t ∨ CancelEffect config s thread (.ucx answer) t := by
  subst shape
  cases answer with
  | callback request status =>
    dsimp only [State.answered] at taken
    simp only [Option.ite_none_right_eq_some, Option.some.injEq] at taken
    obtain ⟨may, rfl⟩ := taken
    exact recvCallback_effect found rfl rfl may
  | progressed more =>
    left
    dsimp only [State.answered] at taken
    simp only [Option.some.injEq] at taken
    subst taken
    unfold State.recvProgressed
    split
    · rename_i locked
      refine .unlock user tries more rest found ?_
      simpa using locked
    · rename_i free
      cases user with
      | none => simp at free
      | some comm =>
        refine .control _ _ _ found (.recvProgressed comm tries more rest ?_)
        simpa using free
  | _ => cases user <;> cases taken

private theorem cancelLoop_effect {user : Option Nat} {op : Nat} {answer : Answer}
    (shape : stack = .call user (.cancelLoop op) :: rest)
    (taken : s.answered config thread answer stack = some t) :
    Effect config s thread (.ucx answer) t ∨ CancelEffect config s thread (.ucx answer) t := by
  subst shape
  cases answer with
  | callback request status =>
    dsimp only [State.answered] at taken
    simp only [Option.ite_none_right_eq_some, Option.some.injEq] at taken
    obtain ⟨may, rfl⟩ := taken
    exact recvCallback_effect found rfl rfl may
  | progressed more =>
    right
    dsimp only [State.answered] at taken
    simp only [Option.some.injEq] at taken
    subst taken
    cases more with
    | true => exact .again user op rest found
    | false => exact .looped user op rest found
  | _ => cases user <;> cases taken

private theorem answered_effect {answer : Answer}
    (taken : s.answered config thread answer stack = some t) :
    Effect config s thread (.ucx answer) t ∨ CancelEffect config s thread (.ucx answer) t := by
  have whole := taken
  unfold State.answered at taken
  split at taken
  · exact .inl (send_effect found rfl whole)
  · exact .inl (post_effect found rfl whole)
  · exact sendLoop_effect found rfl whole
  · exact recvLoop_effect found rfl whole
  · exact cancelLoop_effect found rfl whole
  · cases taken

private theorem drain_effect {user : Option Nat} {stage : Drain}
    (shape : stack = .call user (.clear stage) :: rest) :
    Effect config s thread .advance (s.drain config thread user stage rest) := by
  subst shape
  unfold State.drain
  split
  · rename_i op queue waits
    exact .pop user stage op queue rest found waits
  · rename_i empty
    split
    · rename_i next follows
      exact .control _ _ _ found (.nextQueue user stage next rest empty follows)
    · rename_i last
      cases stage with
      | sends => simp only [Drain.next] at last; split at last <;> cases last
      | recvs => cases last
      | shared => exact .control _ _ _ found (.cleared user rest empty)

private theorem lock_effect {user : Option Nat} {kind : Kind} {src : RankType} {tag : TagType}
    (shape : stack = .call user (.lock kind src tag) :: rest)
    (taken : (s.lock config thread).map
      (·.setStack thread (.call user (.post kind src tag) :: rest)) = some t) :
    Effect config s thread .advance t := by
  subst shape
  obtain ⟨locked, lock, rfl⟩ := Option.map_eq_some_iff.mp taken
  obtain ⟨free, rfl⟩ := State.lock_eq_some lock
  cases safe : config.threadSafe with
  | true =>
    rw [State.locked_of_threadSafe safe]
    exact .lock _ _ found (free safe) (.recv user kind src tag rest safe)
  | false =>
    rw [State.locked_of_single safe]
    exact .control _ _ _ found (.unguarded user kind src tag rest safe)

private theorem tryLock_effect {user : Option Nat} {tries : Nat}
    (shape : stack = .call user (.tryLock tries) :: rest) :
    Effect config s thread .advance (s.tryLock thread user rest tries) := by
  subst shape
  cases tries with
  | zero => exact .control _ _ _ found (.noMoreTries user rest)
  | succ tries =>
    cases held : s.mutex with
    | none =>
      simp only [State.tryLock, held]
      exact .lock _ _ found held (.progress user tries rest)
    | some holder =>
      simp only [State.tryLock, held]
      exact .control _ _ _ found (.busy user tries holder rest held)

private theorem depth_effect {comm : Nat} {kind : Kind} {src : RankType} {tag : TagType} {ptr : Nat}
    (shape : stack = .call (some comm) (.early kind src tag ptr) :: rest)
    (taken : s.advance config thread stack = some t) : Effect config s thread .advance t := by
  subst shape
  dsimp only [State.advance] at taken
  cases lookup : s.comms[comm]? with
  | none => simp [lookup] at taken
  | some c =>
    simp only [lookup] at taken
    split at taken
    · cases taken
      exact .control _ _ _ found (.beyondDepth comm kind src tag ptr c rest lookup ‹_›)
    · rename_i within
      cases taken
      exact .control _ _ _ found
        (.withinDepth comm kind src tag ptr c rest lookup (by simpa using within))

private theorem release_effect {request : UcxRequest} (shape : stack = .release request :: rest)
    (taken : s.advance config thread stack = some t) : Effect config s thread .advance t := by
  subst shape
  dsimp only [State.advance] at taken
  split at taken
  · cases taken
    exact .release request rest found ‹_›
  · cases taken
    exact .badFree request rest found ‹_›

private theorem ask_effect {user : Option Nat} {op : Nat}
    (shape : stack = .call user (.cancelLock op) :: rest)
    (taken : s.askCancel config thread user op rest = some t) :
    CancelEffect config s thread .advance t := by
  subst shape
  obtain ⟨locked, lock, rfl⟩ := Option.map_eq_some_iff.mp taken
  obtain ⟨free, rfl⟩ := State.lock_eq_some lock
  rcases State.withRequest_cases (s := s.locked config thread) op .used _ with
    ⟨ptr, live, held, whole⟩ | ⟨gone, fault⟩
  · rw [whole]
    exact .ask user op ptr rest found free (by simpa using held) (by simpa using live)
  · exact .bad user _ op rest _ found (.inl rfl) (by simpa using gone) fault

private theorem scan_effect {user : Option Nat} {op : Nat}
    (shape : stack = .call user (.cancelScan op) :: rest) :
    CancelEffect config s thread .advance (s.scanCancel config thread user op rest) := by
  subst shape
  unfold State.scanCancel
  cases among : s.foundCanceled thread user op with
  | false => exact .missed user op rest found among
  | true =>
    rcases State.withRequest_cases
      (s := ((s.takeCanceled config thread user op).releaseSelfRef op).setCanceled op) op .used
      (fun ptr used => (used.destroyData ptr).setStack thread (.call user (.cancelFree op) :: rest))
      with ⟨ptr, live, held, whole⟩ | ⟨gone, fault⟩
    · have taken : (s.takeCanceled config thread user op).withdraw thread user op rest = _ := whole
      rw [if_pos rfl, taken]
      exact .withdraw user op ptr rest found among (by simpa using held) (by simpa using live)
    · refine .bad user _ op rest _ found (.inr (.inr ⟨rfl, among⟩)) ?_ fault
      simpa using gone

private theorem free_effect {user : Option Nat} {op : Nat}
    (shape : stack = .call user (.cancelFree op) :: rest)
    (taken : s.freeCanceled config thread op rest = some t) :
    CancelEffect config s thread .advance t := by
  subst shape
  obtain ⟨locked, lock, rfl⟩ := Option.map_eq_some_iff.mp taken
  obtain ⟨free, _⟩ := State.lock_eq_some lock
  rcases State.withRequest_cases (s := s) op .freed _ with ⟨ptr, live, held, whole⟩ | ⟨gone, fault⟩
  · rw [whole]
    exact .free user op ptr rest found free held live
  · exact .bad user _ op rest _ found (.inr (.inl rfl)) gone fault

private theorem advance_effect (taken : s.advance config thread stack = some t) :
    Effect config s thread .advance t ∨ CancelEffect config s thread .advance t := by
  have whole := taken
  unfold State.advance at taken
  split at taken
  · cases taken
    exact .inl (.start _ _ _ found)
  · exact .inl (release_effect found rfl whole)
  · exact .inl (lock_effect found rfl taken)
  · exact .inl (depth_effect found rfl whole)
  · cases taken
    exact .inl (.runEarly _ _ _ _ _ found)
  · cases taken
    exact .inl (.deferEarly _ _ _ _ _ _ found)
  · cases taken
    exact .inl (tryLock_effect found rfl)
  · cases taken
    exact .inl (drain_effect found rfl)
  · cases taken
    exact .inl (.control _ _ _ found (.left _ _))
  · exact .inr (ask_effect found rfl taken)
  · cases taken
    exact .inr (scan_effect found rfl)
  · exact .inr (free_effect found rfl taken)
  · cases taken

private theorem cancel_effect {op : Nat} (user : inUserCode stack = true)
    (taken : s.userCall config thread stack (.cancel op) = some t) :
    CancelEffect config s thread (.cancel op) t := by
  dsimp only [State.userCall] at taken
  cases posted : s.posts[op]? with
  | none => simp [posted] at taken
  | some post =>
    simp only [posted, Option.ite_none_left_eq_some, not_or, not_and, Bool.not_eq_true,
      Bool.not_eq_false] at taken
    obtain ⟨⟨made, receive, usable⟩, taken⟩ := taken
    split at taken
    · cases taken
      exact .refuse op post posted made ‹_›
    · rename_i pending
      cases taken
      exact .begin op post stack found user posted made receive usable (by simpa using pending)

private theorem userCall_effect {act : Act} (user : inUserCode stack = true)
    (taken : s.userCall config thread stack act = some t) :
    Effect config s thread act t ∨ CancelEffect config s thread act t := by
  cases act with
  | getCommunicator =>
    obtain ⟨_, _, rfl⟩ := Option.map_eq_some_iff.mp taken
    exact .inl .getCommunicator
  | send comm dst tag =>
    dsimp only [State.userCall] at taken
    simp only [Option.ite_none_right_eq_some] at taken
    obtain ⟨usable, taken⟩ := taken
    cases taken
    exact .inl (.control _ _ _ found (.send comm dst tag stack user usable))
  | recv comm src tag =>
    dsimp only [State.userCall] at taken
    simp only [Option.ite_none_right_eq_some] at taken
    obtain ⟨usable, taken⟩ := taken
    cases taken
    exact .inl (.control _ _ _ found (.recv _ comm .recv src tag stack user usable))
  | sharedRecv comm src tag =>
    dsimp only [State.userCall] at taken
    simp only [Option.ite_none_right_eq_some] at taken
    obtain ⟨usable, taken⟩ := taken
    cases taken
    exact .inl (.control _ _ _ found (.recv _ comm .sharedRecv src tag stack user usable))
  | progress comm =>
    dsimp only [State.userCall] at taken
    simp only [Option.ite_none_right_eq_some] at taken
    obtain ⟨usable, taken⟩ := taken
    cases taken
    exact .inl (.control _ _ _ found (.progress comm stack user usable))
  | contextProgress =>
    cases taken
    exact .inl (.control _ _ _ found (.contextProgress stack user))
  | cancel op => exact .inr (cancel_effect found user taken)
  | _ => cases taken

end

/-- Every step is one of the effects. -/
theorem step_cases {action : Action} (taken : step config s action = some t) :
    Effect config s action.thread action.act t ∨
      CancelEffect config s action.thread action.act t := by
  unfold step at taken
  split at taken
  · cases taken
  · cases found : s.threads[action.thread]? with
    | none => simp [found] at taken
    | some stack =>
      simp only [found] at taken
      split at taken
      · rename_i answer act
        rw [act]
        exact answered_effect found taken
      · rename_i act
        rw [act]
        exact advance_effect found taken
      · rename_i act
        rw [act]
        split at taken
        · cases taken
          exact .inl (.returnCallback _ _ _ found)
        · cases taken
      · split at taken
        · exact userCall_effect found ‹_› taken
        · cases taken

theorem State.Uncanceled.not_cancelEffect {act : Act} (uncanceled : s.Uncanceled)
    (permitted : act.isCancel = false) : ¬ CancelEffect config s thread act t := by
  intro effect
  have plain : ∀ {frame : Frame} {rest : List Frame},
      s.threads[thread]? = some (frame :: rest) → frame.isCancel = false :=
    fun found => uncanceled.frames _ (List.mem_of_getElem? found) _ List.mem_cons_self
  cases effect with
  | refuse => cases permitted
  | begin => cases permitted
  | bad user code op rest t found code =>
    rcases code with rfl | rfl | ⟨rfl, _⟩ <;> cases plain found
  | sendCanceled comm request rest found inFlight worker asked =>
    simp [uncanceled.canceling] at asked
  | canceledOwn user code request op shared rest found receives inFlight worker asked =>
    simp [uncanceled.canceling] at asked
  | canceledShared user code request op rest found receives inFlight worker asked =>
    simp [uncanceled.canceling] at asked
  | canceledNull user code request rest found receives inFlight asked =>
    simp [uncanceled.canceling] at asked
  | ask user op ptr rest found => cases plain found
  | again user op rest found => cases plain found
  | looped user op rest found => cases plain found
  | missed user op rest found => cases plain found
  | withdraw user op ptr rest found => cases plain found
  | free user op ptr rest found => cases plain found

theorem step_effect {action : Action} (uncanceled : s.Uncanceled)
    (permitted : action.act.isCancel = false) (taken : step config s action = some t) :
    Effect config s action.thread action.act t :=
  (step_cases taken).resolve_right (uncanceled.not_cancelEffect permitted)

end Oomph.Ucx
