import Oomph.Ucx.Memory

namespace Oomph.Ucx

open Machine State

def Belongs (posts : List Post) (user : Option Nat) (op : Nat) : Prop :=
  PostedAs posts op fun post => post.inplace = false ∧ userOf post.comm post.kind = user

def Via.user : Via → Option Nat
  | .immediate comm => some comm
  | .early user => user
  | .sent comm => some comm
  | .received comm => some comm
  | .queue user => user

/-- The operation of a frame is of the kind that the frame handles. -/
def Frame.Fits (comms : Nat) (posts : List Post) : Frame → Prop
  | .callback op via => PostedAs posts op fun post =>
    post.inplace = via.inplace ∧ userOf post.comm post.kind = via.user
  | .invoke op via => Belongs posts via.user op ∧ via.inplace = false
  | .call user code => (∀ comm, user = some comm → comm < comms) ∧
      ∀ op, code.cancels = some op →
        Belongs posts user op ∧ PostedAs posts op fun post => post.kind ≠ .send
  | .release _ => True

def CommunicatorImpl.waiting (c : CommunicatorImpl) : Multiset Nat :=
  c.sendReqQueue + c.recvReqQueue + c.cancelRecvReqQueue

namespace State

def queued (s : State) : Option Nat → Multiset Nat
  | some comm => (s.comms[comm]?.map CommunicatorImpl.waiting).getD 0
  | none => s.recvReqQueue + s.cancelRecvReqQueue

structure Settled (s : State) : Prop where
  recorded : ∀ op post, s.posts[op]? = some post → post.inplace = false →
    (s.heap op).identity = RequestStateBase.create post.comm post.kind post.rank post.tag op
  owned : ∀ post ∈ s.posts, post.comm < s.comms.length
  queues : ∀ user, ∀ op ∈ s.queued user, Belongs s.posts user op
  frames : ∀ stack ∈ s.threads, ∀ frame ∈ stack, frame.Fits s.comms.length s.posts

end State

variable {config : Config} {s t : State} {thread : Nat} {stack moved rest : List Frame}
  {act : Act} {frame : Frame} {posts : List Post} {op comm : Nat} {user : Option Nat}

namespace CommunicatorImpl

theorem waiting_enqueueSend (op : Nat) (c : CommunicatorImpl) :
    (c.enqueueSend op).waiting = {op} + c.waiting := by
  simp only [waiting, enqueueSend, ← Multiset.coe_add, Multiset.coe_singleton]
  abel

theorem waiting_enqueueRecv (op : Nat) (c : CommunicatorImpl) :
    (c.enqueueRecv op).waiting = {op} + c.waiting := by
  simp only [waiting, enqueueRecv, ← Multiset.coe_add, Multiset.coe_singleton]
  abel

theorem waiting_enqueueCancelRecv (op : Nat) (c : CommunicatorImpl) :
    (c.enqueueCancelRecv op).waiting = {op} + c.waiting := by
  simp only [waiting, enqueueCancelRecv, ← Multiset.coe_add, Multiset.coe_singleton]
  abel

end CommunicatorImpl

namespace State

theorem queued_modifyComm {change : CommunicatorImpl → CommunicatorImpl} {other : Nat}
    (member : other ∈ (s.modifyComm comm change).queued user) :
    other ∈ s.queued user ∨ user = some comm ∧ ∃ c, s.comms[comm]? = some c ∧
      other ∈ (change c).waiting := by
  cases user with
  | none => exact .inl member
  | some asked =>
    simp only [queued, modifyComm_comms, List.getElem?_modify] at member ⊢
    cases found : s.comms[asked]? with
    | none => simp [found] at member
    | some c =>
      by_cases here : comm = asked
      · subst here
        refine .inr ⟨rfl, c, found, by simpa [found] using member⟩
      · left
        simpa [found, here] using member

theorem queued_modifyComm_same {change : CommunicatorImpl → CommunicatorImpl} {other : Nat}
    (same : ∀ c, (change c).waiting = c.waiting)
    (member : other ∈ (s.modifyComm comm change).queued user) : other ∈ s.queued user := by
  rcases queued_modifyComm member with old | ⟨rfl, c, found, inside⟩
  · exact old
  · rw [same] at inside
    simpa [queued, found] using inside

theorem queued_push {change : CommunicatorImpl → CommunicatorImpl} {other : Nat}
    (pushed : ∀ c, (change c).waiting = {op} + c.waiting)
    (member : other ∈ (s.modifyComm comm change).queued user) :
    other ∈ s.queued user ∨ other = op ∧ user = some comm := by
  rcases queued_modifyComm member with old | ⟨rfl, c, found, inside⟩
  · exact .inl old
  · rw [pushed, Multiset.singleton_add, Multiset.mem_cons] at inside
    rcases inside with rfl | old
    · exact .inr ⟨rfl, rfl⟩
    · exact .inl (by simpa [queued, found] using old)

theorem queued_enqueueRecv {target : Option Nat} {other : Nat}
    (member : other ∈ (s.enqueueRecv target op).queued user) :
    other ∈ s.queued user ∨ other = op ∧ user = target := by
  cases target with
  | some comm => exact queued_push (CommunicatorImpl.waiting_enqueueRecv op) member
  | none =>
    cases user with
    | some comm => exact .inl member
    | none =>
      have inside : other ∈ s.recvReqQueue ++ [op] ∨ other ∈ s.cancelRecvReqQueue :=
        Multiset.mem_add.mp member
      simp only [queued, Multiset.mem_add, Multiset.mem_coe, List.mem_append,
        List.mem_singleton] at inside ⊢
      tauto

theorem queued_enqueueCancelRecv {target : Option Nat} {other : Nat}
    (member : other ∈ (s.enqueueCancelRecv target op).queued user) :
    other ∈ s.queued user ∨ other = op ∧ user = target := by
  cases target with
  | some comm => exact queued_push (CommunicatorImpl.waiting_enqueueCancelRecv op) member
  | none =>
    cases user with
    | some comm => exact .inl member
    | none =>
      have inside : other ∈ s.recvReqQueue ∨ other ∈ s.cancelRecvReqQueue ++ [op] :=
        Multiset.mem_add.mp member
      simp only [queued, Multiset.mem_add, Multiset.mem_coe, List.mem_append,
        List.mem_singleton] at inside ⊢
      tauto

theorem queued_takeCanceled (config : Config) (thread : Nat) {target : Option Nat} {other : Nat}
    (member : other ∈ (s.takeCanceled config thread target op).queued user) :
    other ∈ s.queued user := by
  cases target with
  | some comm =>
    rcases queued_modifyComm (s := s) member with old | ⟨rfl, c, found, inside⟩
    · exact old
    · simp only [CommunicatorImpl.waiting, CommunicatorImpl.removeCanceled, Multiset.mem_add,
        Multiset.mem_coe, List.mem_filter] at inside
      simp only [queued, found, CommunicatorImpl.waiting, Option.map_some, Option.getD_some,
        Multiset.mem_add, Multiset.mem_coe]
      tauto
  | none =>
    cases user with
    | some comm => exact member
    | none =>
      have inside : other ∈ s.recvReqQueue ∨ other ∈ s.cancelRecvReqQueue.filter (· ≠ op) :=
        Multiset.mem_add.mp member
      simp only [queued, Multiset.mem_add, Multiset.mem_coe, List.mem_filter] at inside ⊢
      tauto

theorem queued_setReqQueue {stage : Drain} {queue : List Nat} {other : Nat}
    (waits : s.reqQueue stage = op :: queue)
    (member : other ∈ (s.setReqQueue stage queue).queued user) : other ∈ s.queued user := by
  cases stage with
  | shared =>
    cases user with
    | some comm => exact member
    | none =>
      have whole : s.recvReqQueue = op :: queue := waits
      simp only [setReqQueue, queued, whole, Multiset.mem_add, Multiset.mem_coe,
        List.mem_cons] at member ⊢
      tauto
  | sends comm =>
    rcases queued_modifyComm member with old | ⟨rfl, c, found, inside⟩
    · exact old
    · have whole : c.sendReqQueue = op :: queue := by simpa [reqQueue, found] using waits
      simp only [queued, found, CommunicatorImpl.waiting, whole, Option.map_some, Option.getD_some,
        Multiset.mem_add, Multiset.mem_coe, List.mem_cons] at inside ⊢
      tauto
  | recvs comm =>
    rcases queued_modifyComm member with old | ⟨rfl, c, found, inside⟩
    · exact old
    · have whole : c.recvReqQueue = op :: queue := by simpa [reqQueue, found] using waits
      simp only [queued, found, CommunicatorImpl.waiting, whole, Option.map_some, Option.getD_some,
        Multiset.mem_add, Multiset.mem_coe, List.mem_cons] at inside ⊢
      tauto

theorem queued_incRecursion (via : Via) {other : Nat}
    (member : other ∈ (s.incRecursion via).queued user) : other ∈ s.queued user := by
  cases via with
  | immediate comm => exact queued_modifyComm_same (s := s) (fun _ => by rfl) member
  | early target =>
    cases target with
    | some comm => exact queued_modifyComm_same (s := s) (fun _ => by rfl) member
    | none => exact member
  | _ => exact member

theorem queued_decRecursion (via : Via) {other : Nat}
    (member : other ∈ (s.decRecursion via).queued user) : other ∈ s.queued user := by
  cases via with
  | immediate comm => exact queued_modifyComm_same (s := s) (fun _ => by rfl) member
  | early target =>
    cases target with
    | some comm => exact queued_modifyComm_same (s := s) (fun _ => by rfl) member
    | none => exact member
  | _ => exact member

theorem queued_addCommunicator {other : Nat}
    (member : other ∈ (s.addCommunicator thread).queued user) : other ∈ s.queued user := by
  cases user with
  | none => exact member
  | some comm =>
    simp only [queued, addCommunicator_comms, List.getElem?_append] at member ⊢
    split at member
    · exact member
    · cases index : comm - s.comms.length <;>
        simp [index, CommunicatorImpl.waiting] at member

end State

theorem userOf_of_ne {kind : Kind} (own : ¬ kind = .sharedRecv) : userOf comm kind = some comm := by
  cases kind with
  | sharedRecv => contradiction
  | _ => rfl

namespace State

theorem Settled.comm_eq (settled : s.Settled) {post : Post} (posted : s.posts[op]? = some post)
    (made : post.inplace = false) : (s.heap op).comm = post.comm :=
  congrArg RequestStateBase.comm (settled.recorded op post posted made)

theorem Attached.own {request : UcxRequest} {shared : Option Nat} (attached : s.Attached)
    (settled : s.Settled) (member : request ∈ s.inFlight)
    (data : s.requestData request.ptr = { req := some op, sharedReq := shared }) :
    op = request.op ∧ Belongs s.posts (some (s.heap op).comm) op := by
  obtain ⟨post, posted, made, constructed, _⟩ := attached.data request member
  have constructed : s.requestData request.ptr = .construct post.kind request.op := constructed
  rw [data] at constructed
  have own : ¬ post.kind = .sharedRecv := by
    intro kind
    simp [kind, RequestData.construct] at constructed
  have same : op = request.op := by
    cases kind : post.kind <;> simp_all [RequestData.construct]
  subst same
  exact ⟨rfl, post, posted, made, by rw [settled.comm_eq posted made, userOf_of_ne own]⟩

theorem Attached.shared {request : UcxRequest} (attached : s.Attached)
    (member : request ∈ s.inFlight)
    (data : s.requestData request.ptr = { req := none, sharedReq := some op }) :
    op = request.op ∧ Belongs s.posts none op := by
  obtain ⟨post, posted, made, constructed, _⟩ := attached.data request member
  have constructed : s.requestData request.ptr = .construct post.kind request.op := constructed
  rw [data] at constructed
  have shared : post.kind = .sharedRecv := by
    cases kind : post.kind <;> simp_all [RequestData.construct]
  have same : op = request.op := by simpa [shared, RequestData.construct] using constructed
  subst same
  exact ⟨rfl, post, posted, made, by rw [shared]; rfl⟩

theorem Attached.not_empty {request : UcxRequest} (attached : s.Attached)
    (member : request ∈ s.inFlight) : s.requestData request.ptr ≠ .empty := by
  obtain ⟨post, _, _, constructed, _⟩ := attached.data request member
  have constructed : s.requestData request.ptr = .construct post.kind request.op := constructed
  rw [constructed]
  cases post.kind <;> simp [RequestData.construct, RequestData.empty]

theorem Attached.get {request : UcxRequest} (attached : s.Attached) (member : request ∈ s.inFlight) :
    (s.requestData request.ptr).get = some request.op := by
  obtain ⟨post, _, _, constructed, _⟩ := attached.data request member
  have constructed : s.requestData request.ptr = .construct post.kind request.op := constructed
  rw [constructed]
  cases post.kind <;> rfl

theorem Attached.sent {request : UcxRequest} (attached : s.Attached) (member : request ∈ s.inFlight)
    (worker : request.worker = some comm) (get : (s.requestData request.ptr).get = some op) :
    op = request.op ∧ Belongs s.posts (some comm) op := by
  rw [attached.get member] at get
  cases get
  obtain ⟨post, posted, made, _, sends⟩ := attached.data request member
  obtain ⟨kind, rfl⟩ := sends comm worker
  exact ⟨rfl, post, posted, made, by rw [kind]; rfl⟩

end State

/-- A request enters a queue of the communicator or the context it belongs to. -/
theorem effect_queued (settled : s.Settled) (attached : s.Attached)
    (effect : Effect config s thread act t) {other : Nat} (member : other ∈ t.queued user) :
    other ∈ s.queued user ∨ Belongs t.posts user other := by
  cases effect with
  | getCommunicator => exact .inl (queued_addCommunicator member)
  | runSend comm => exact .inl (queued_incRecursion (s := s.addPost _) (.immediate comm) member)
  | queueSend comm dst tag =>
    rcases queued_push (s := s.create comm .send dst tag none)
      (CommunicatorImpl.waiting_enqueueSend _) member with old | ⟨rfl, rfl⟩
    · exact .inl old
    · exact .inr (PostedAs.last ⟨rfl, rfl⟩)
  | runEarly comm kind =>
    exact .inl (queued_incRecursion (s := (s.addPost _).complete _) (.early (userOf comm kind)) member)
  | deferEarly comm kind src tag ptr =>
    rcases queued_enqueueRecv (s := ((s.create comm kind src tag (some ptr)).complete _).defer _)
      member with old | ⟨rfl, rfl⟩
    · exact .inl old
    · exact .inr (PostedAs.last ⟨rfl, rfl⟩)
  | recvOwn asked code request op shared rest found receives inFlight worker data =>
    rcases queued_enqueueRecv (s := ((s.takeRequest request).complete _).release _) member with
      old | ⟨rfl, rfl⟩
    · exact .inl old
    · exact .inr (attached.own settled inFlight data).2
  | recvShared asked code request op rest found receives inFlight worker data =>
    rcases queued_enqueueRecv (s := ((s.takeRequest request).complete _).release _) member with
      old | ⟨rfl, rfl⟩
    · exact .inl old
    · exact .inr (attached.shared inFlight data).2
  | returnCallback op via =>
    left
    unfold State.returnCallback at member
    split at member
    · exact queued_decRecursion (s := s.log _) via member
    · exact member
  | pop asked stage op queue rest found waits => exact .inl (queued_setReqQueue waits member)
  | _ => exact .inl member

theorem cancelEffect_queued (settled : s.Settled) (attached : s.Attached)
    (effect : CancelEffect config s thread act t) (sound : t.fault = none) {other : Nat}
    (member : other ∈ t.queued user) : other ∈ s.queued user ∨ Belongs s.posts user other := by
  cases effect with
  | bad asked code op rest t found code gone fault => simp [sound] at fault
  | canceledOwn asked code request op shared rest found receives inFlight worker asking data =>
    rcases queued_enqueueCancelRecv (s := s.takeRequest request) member with old | ⟨rfl, rfl⟩
    · exact .inl old
    · exact .inr (attached.own settled inFlight data).2
  | canceledShared asked code request op rest found receives inFlight worker asking data =>
    rcases queued_enqueueCancelRecv (s := s.takeRequest request) member with old | ⟨rfl, rfl⟩
    · exact .inl old
    · exact .inr (attached.shared inFlight data).2
  | looped asked =>
    left
    cases asked <;> exact member
  | missed => exact .inl (queued_takeCanceled config thread (s := s) member)
  | withdraw => exact .inl (queued_takeCanceled config thread (s := s) member)
  | _ => exact .inl member

section

variable {count : Nat}

def Fit (count : Nat) (posts : List Post) (stack : List Frame) : Prop :=
  ∀ frame ∈ stack, frame.Fits count posts

namespace Fit

theorem tail (fit : Fit count posts (frame :: rest)) : Fit count posts rest :=
  (List.forall_mem_cons.mp fit).2

theorem push (fit : Fit count posts rest) (fits : frame.Fits count posts) :
    Fit count posts (frame :: rest) :=
  List.forall_mem_cons.mpr ⟨fits, fit⟩

theorem recode {code next : Code} (fit : Fit count posts (.call user code :: rest))
    (same : next.cancels = none ∨ next.cancels = code.cancels) :
    Fit count posts (.call user next :: rest) := by
  obtain ⟨called, others⟩ := List.forall_mem_cons.mp fit
  refine push others ⟨called.1, fun op cancels => called.2 op ?_⟩
  rcases same with none | same
  · rw [none] at cancels
    cases cancels
  · rwa [← same]

end Fit

theorem Frame.Fits.grow {more : List Post} {larger : Nat} (fits : frame.Fits count posts)
    (grown : posts <+: more) (enough : count ≤ larger) : frame.Fits larger more := by
  obtain ⟨new, rfl⟩ := grown
  cases frame with
  | callback op via => exact PostedAs.append fits new
  | invoke op via => exact ⟨PostedAs.append fits.1 new, fits.2⟩
  | release request => trivial
  | call user code =>
    exact ⟨fun comm called => (fits.1 comm called).trans_le enough,
      fun op cancels => (fits.2 op cancels).imp (PostedAs.append · new) (PostedAs.append · new)⟩

end

theorem lt_of_usable (usable : s.usable thread comm = true) : comm < s.comms.length := by
  obtain ⟨c, found, _⟩ := Option.map_eq_some_iff.mp (ownerOf_of_usable usable)
  exact (List.getElem?_eq_some_iff.mp found).1

theorem control_fit (control : Control config s thread act stack moved)
    (fit : Fit s.comms.length posts stack) : Fit s.comms.length posts moved := by
  have call : ∀ {called : Nat} {code : Code}, s.usable thread called = true → code.cancels = none →
      (Frame.call (some called) code).Fits s.comms.length posts := by
    intro called code usable plain
    refine ⟨fun other same => ?_, fun op cancels => ?_⟩
    · cases same
      exact lt_of_usable usable
    · rw [plain] at cancels
      cases cancels
  cases control with
  | send comm dst tag stack _ usable => exact fit.push (call usable rfl)
  | recv act comm kind src tag stack _ usable => exact fit.push (call usable rfl)
  | progress comm stack _ usable => exact fit.push (call usable rfl)
  | contextProgress => exact fit.push ⟨nofun, nofun⟩
  | sendError => exact fit.tail
  | recvError => exact fit.tail
  | left => exact fit.tail
  | cleared => exact fit.tail
  | sendProgressed comm more =>
    refine fit.recode (.inl ?_)
    cases more with
    | true => rfl
    | false =>
      simp only [Bool.false_eq_true, if_false, State.afterSendLoop]
      split <;> rfl
  | recvProgressed comm tries more =>
    refine fit.recode (.inl ?_)
    cases more <;> rfl
  | _ => exact fit.recode (.inl rfl)

theorem State.queued_of_reqQueue {stage : Drain} (member : op ∈ s.reqQueue stage) :
    op ∈ s.queued stage.user := by
  cases stage with
  | shared => exact Multiset.mem_add.mpr (.inl member)
  | sends comm =>
    cases found : s.comms[comm]? with
    | none => simp [reqQueue, found] at member
    | some c =>
      have inside : op ∈ c.sendReqQueue := by simpa [reqQueue, found] using member
      simp [queued, Drain.user, found, CommunicatorImpl.waiting, inside]
  | recvs comm =>
    cases found : s.comms[comm]? with
    | none => simp [reqQueue, found] at member
    | some c =>
      have inside : op ∈ c.recvReqQueue := by simpa [reqQueue, found] using member
      simp [queued, Drain.user, found, CommunicatorImpl.waiting, inside]

theorem effect_fit (settled : s.Settled) (attached : s.Attached)
    (effect : Effect config s thread act t) :
    Moves (fun stack moved => Fit t.comms.length t.posts stack → Fit t.comms.length t.posts moved)
      thread s.threads t.threads := by
  cases effect with
  | control act stack moved found control =>
    have keeps : Fit s.comms.length s.posts stack → Fit s.comms.length s.posts moved :=
      control_fit control
    exact .move _ _ found keeps
  | lock stack moved found free locks =>
    refine .move _ _ found fun fit => ?_
    cases locks <;> exact fit.recode (.inl rfl)
  | unlock user tries more rest found =>
    refine .move _ _ found fun fit => fit.recode (.inl ?_)
    cases more <;> rfl
  | runSend comm dst tag c rest found =>
    exact .move _ _ found fun fit => (fit.recode (.inl rfl)).push (PostedAs.last ⟨rfl, rfl⟩)
  | runEarly comm kind src tag rest found =>
    exact .move _ _ found fun fit => (fit.recode (.inl rfl)).push (PostedAs.last ⟨rfl, rfl⟩)
  | queueSend comm dst tag c rest found => exact .move _ _ found fun fit => fit.tail
  | submitSend comm dst tag ptr rest found => exact .move _ _ found fun fit => fit.tail
  | submitRecv comm kind src tag ptr rest found => exact .move _ _ found fun fit => fit.tail
  | truncated comm kind src tag ptr rest found => exact .move _ _ found fun fit => fit.tail
  | deferEarly comm kind src tag ptr rest found => exact .move _ _ found fun fit => fit.tail
  | early comm kind src tag ptr rest found =>
    exact .move _ _ found fun fit => fit.recode (.inl rfl)
  | sendOk comm request op rest found inFlight worker get =>
    refine .move _ _ found fun fit => Fit.push (Fit.push fit trivial) ?_
    exact ⟨(attached.sent inFlight worker get).2, rfl⟩
  | sendFailed comm request rest found => exact .move _ _ found fun fit => fit.push trivial
  | recvDirect user code request op shared rest found receives inFlight worker data =>
    exact .move _ _ found fun fit => fit.push ⟨(attached.own settled inFlight data).2, rfl⟩
  | recvFailed user code request rest found => exact .move _ _ found fun fit => fit.tail
  | start op via rest found =>
    refine .move _ _ found fun fit => fit.tail.push ?_
    obtain ⟨belongs, inplace⟩ := fit _ List.mem_cons_self
    exact belongs.imp fun post own => ⟨own.1.trans inplace.symm, own.2⟩
  | returnCallback op via rest found =>
    unfold State.returnCallback
    split <;> exact .move _ _ found fun fit => fit.tail
  | release request rest found => exact .move _ _ found fun fit => fit.tail
  | pop user stage op queue rest found waits =>
    refine .move _ _ found fun fit => fit.push ⟨settled.queues stage.user op ?_, rfl⟩
    apply queued_of_reqQueue
    rw [waits]
    exact List.mem_cons_self
  | _ => exact .same

theorem cancelEffect_fit (effect : CancelEffect config s thread act t) (sound : t.fault = none) :
    Moves (fun stack moved => Fit t.comms.length t.posts stack → Fit t.comms.length t.posts moved)
      thread s.threads t.threads := by
  cases effect with
  | bad user code op rest t found code gone fault => simp [sound] at fault
  | begin op post stack found user posted made receive usable =>
    refine .move _ _ found fun fit => fit.push ⟨fun comm called => ?_, fun other cancels => ?_⟩
    · have own : post.kind = .recv := by
        cases kind : post.kind with
        | send => exact absurd kind receive
        | recv => rfl
        | sharedRecv => simp [kind, userOf] at called
      have same : post.comm = comm := by simpa [own, userOf] using called
      exact lt_of_usable (same ▸ usable own)
    · cases cancels
      exact ⟨⟨post, posted, made, rfl⟩, post, posted, receive⟩
  | ask user op ptr rest found => exact .move _ _ found fun fit => fit.recode (.inr rfl)
  | sendCanceled comm request rest found => exact .move _ _ found fun fit => fit.push trivial
  | looped user op rest found =>
    cases user <;> exact .move _ _ found fun fit => fit.recode (.inr rfl)
  | missed user op rest found => exact .move _ _ found fun fit => fit.tail
  | withdraw user op ptr rest found => exact .move _ _ found fun fit => fit.recode (.inr rfl)
  | free user op ptr rest found => exact .move _ _ found fun fit => fit.tail
  | _ => exact .same

theorem CommsStep.length_le {before after : List CommunicatorImpl} (step : CommsStep before after) :
    before.length ≤ after.length := by
  cases step with
  | same => exact le_refl _
  | add c => simp
  | change comm change => simp

namespace State.Settled

private theorem of_steps (settled : s.Settled) (records : RecordStep s t)
    (comms : CommsStep s.comms t.comms)
    (queues : ∀ {user other}, other ∈ t.queued user →
      other ∈ s.queued user ∨ Belongs t.posts user other)
    (moves : Moves (fun stack moved => Fit t.comms.length t.posts stack →
      Fit t.comms.length t.posts moved) thread s.threads t.threads) : t.Settled := by
  have enough := comms.length_le
  have called : ∀ {comm}, (∃ stack ∈ s.threads, ∃ code, Frame.call (some comm) code ∈ stack) →
      comm < t.comms.length := by
    rintro comm ⟨stack, member, code, inside⟩
    exact ((settled.frames stack member _ inside).1 comm rfl).trans_le enough
  refine ⟨?_, ?_, ?_, ?_⟩
  · intro op post posted made
    cases records with
    | same posts heap =>
      rw [heap]
      exact settled.recorded op post (posts ▸ posted) made
    | create comm kind rank tag ptr _ posts heap =>
      rw [posts] at posted
      rw [heap]
      rcases concat_cases posted with ⟨inside, old⟩ | ⟨rfl, rfl⟩
      · rw [create_heap, Function.update_of_ne (Nat.ne_of_lt inside)]
        exact settled.recorded op post old made
      · rw [create_heap, Function.update_self]
        rfl
    | inplace new _ inplace posts heap =>
      rw [posts] at posted
      rw [heap]
      rcases concat_cases posted with ⟨inside, old⟩ | ⟨rfl, rfl⟩
      · exact settled.recorded op post old made
      · rw [inplace] at made
        cases made
  · intro post member
    cases records with
    | same posts => exact (settled.owned post (posts ▸ member)).trans_le enough
    | create comm kind rank tag ptr active posts =>
      rw [posts] at member
      rcases List.mem_append.mp member with old | new
      · exact (settled.owned post old).trans_le enough
      · rw [List.mem_singleton.mp new]
        exact called active
    | inplace new active inplace posts =>
      rw [posts] at member
      rcases List.mem_append.mp member with old | fresh
      · exact (settled.owned post old).trans_le enough
      · rw [List.mem_singleton.mp fresh]
        exact called active
  · intro user other member
    rcases queues member with old | new
    · obtain ⟨more, grown⟩ := records.grown
      rw [← grown]
      exact (settled.queues user other old).append more
    · exact new
  · exact moves.forall_mem (fun _ _ keeps => keeps) fun stack member frame inside =>
      (settled.frames stack member frame inside).grow records.grown enough

theorem effect (settled : s.Settled) (attached : s.Attached)
    (effect : Effect config s thread act t) : t.Settled :=
  settled.of_steps (effect_records effect) (effect_comms effect)
    (effect_queued settled attached effect) (effect_fit settled attached effect)

theorem cancelEffect (settled : s.Settled) (attached : s.Attached)
    (effect : CancelEffect config s thread act t) (sound : t.fault = none) : t.Settled := by
  have records := cancelEffect_records effect sound
  refine settled.of_steps records (cancelEffect_comms effect sound) (fun member => ?_)
    (cancelEffect_fit effect sound)
  rcases cancelEffect_queued settled attached effect sound member with old | new
  · exact .inl old
  · obtain ⟨more, grown⟩ := records.grown
    rw [← grown]
    exact .inr (new.append more)

theorem initial (threads : Nat) : (State.initial threads).Settled where
  recorded op post posted := by simp [State.initial] at posted
  owned post member := by simp [State.initial] at member
  queues user op member := by cases user <;> simp [State.initial, queued] at member
  frames stack member frame inside := by
    rw [List.eq_of_mem_replicate member] at inside
    cases inside

end State.Settled

end Oomph.Ucx
