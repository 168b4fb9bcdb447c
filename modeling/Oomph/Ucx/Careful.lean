import Oomph.Ucx.Settled

namespace Oomph.Ucx

open Machine State

/-! A cancel uses the pointer of its receive, so it must come before UCX has completed the
receive and before another cancel has freed the request.  A cancel of a shared receive also
depends on a variable of the thread that an earlier one leaves behind.  In runs that respect
both, the machine uses the memory of requests as the abstract one does.
-/

variable {config : Config} {s t : State} {thread : Nat} {stack moved rest : List Frame}
  {act : Act} {frame : Frame} {op comm ptr : Nat} {user : Option Nat} {request : UcxRequest}

namespace State

/-- UCX has the receive in progress, or has cancelled it and no cancel has freed its request. -/
def Cancelable (s : State) (op : Nat) : Prop :=
  (∃ request ∈ s.inFlight, request.op = op) ∨ op ∈ s.canceled ∨ op ∈ s.freeing

instance : Decidable (s.Cancelable op) :=
  inferInstanceAs (Decidable (_ ∨ _ ∨ _))

def careful (s : State) (thread : Nat) : Bool :=
  match s.threads[thread]? with
  | some (.call _ (.cancelLock op) :: _) => s.Cancelable op
  | some (.call none (.cancelScan op) :: _) => !s.found thread || op ∈ s.cancelQueue none
  | _ => true

end State

/-- A cancel asks UCX about a receive that can still be cancelled, and a cancel of a shared
receive finds its variable unset unless it is right. -/
def Careful (s : State) (action : Action) : Prop :=
  s.careful action.thread = true

instance (s : State) (action : Action) : Decidable (Careful s action) :=
  inferInstanceAs (Decidable (_ = true))

theorem freeing_of_posting {code : Code} (posting : code.posting = true) :
    (Frame.call user code).freeing = 0 := by
  cases code with
  | cancelFree => cases posting
  | _ => rfl

theorem freeing_of_receives {code : Code} (receives : code.receives = true) :
    (Frame.call user code).freeing = 0 := by
  cases code with
  | cancelFree => cases receives
  | _ => rfl

theorem Restack.freeing (restack : Restack config s thread act stack moved) :
    total Frame.freeing moved = total Frame.freeing stack := by
  cases restack with
  | control stack moved control =>
    cases control with
    | sendProgressed comm more =>
      cases more with
      | true => simp
      | false =>
        simp only [Bool.false_eq_true, if_false, State.afterSendLoop]
        split <;> simp
    | recvProgressed comm tries more => cases more <;> simp
    | _ => simp
  | lock stack moved locks => cases locks <;> simp
  | unlock user tries more => cases more <;> simp
  | posted comm code rest posting => simp only [total_cons, freeing_of_posting posting, zero_add]
  | early comm code next rest posting follows =>
    simp only [total_cons, freeing_of_posting posting, freeing_of_posting follows]
  | inplace comm op code via rest posting =>
    simp only [total_cons, freeing_of_posting posting]
    simp
  | recvFailed user code request rest receives =>
    simp only [total_cons, freeing_of_receives receives, zero_add]
  | _ => simp

theorem effect_freeing (effect : Effect config s thread act t) : t.freeing = s.freeing :=
  (effect_moves effect).total_same fun _ _ restack => restack.freeing

theorem State.canceled_modifyComm {change : CommunicatorImpl → CommunicatorImpl}
    (same : ∀ c, (change c).canceled = c.canceled) :
    (s.modifyComm comm change).canceled = s.canceled := by
  simp only [canceled, modifyComm_comms, modifyComm_cancelRecvReqQueue, total_modify_same _ _ _ same]

theorem effect_canceled (effect : Effect config s thread act t) : t.canceled = s.canceled := by
  cases effect with
  | getCommunicator => simp [State.canceled, CommunicatorImpl.canceled]
  | runSend comm => exact canceled_modifyComm (s := s) fun _ => by rfl
  | queueSend comm => exact canceled_modifyComm (s := s) fun _ => by rfl
  | runEarly comm kind =>
    cases kind with
    | sharedRecv => rfl
    | _ => exact canceled_modifyComm (s := s) fun _ => by rfl
  | deferEarly comm kind =>
    cases kind with
    | sharedRecv => rfl
    | _ => exact canceled_modifyComm (s := s) fun _ => by rfl
  | recvOwn user code request op => exact canceled_modifyComm (s := s) fun _ => by rfl
  | returnCallback op via =>
    unfold State.returnCallback
    split
    · cases via with
      | immediate comm => exact canceled_modifyComm (s := s) fun _ => by rfl
      | early user =>
        cases user with
        | some comm => exact canceled_modifyComm (s := s) fun _ => by rfl
        | none => rfl
      | _ => rfl
    · rfl
  | pop user stage =>
    cases stage with
    | sends comm => exact canceled_modifyComm (s := s) fun _ => by rfl
    | recvs comm => exact canceled_modifyComm (s := s) fun _ => by rfl
    | shared => rfl
  | _ => rfl

namespace State

theorem releasing_moved (found : s.threads[thread]? = some stack)
    (threads : t.threads = s.threads.set thread moved) : ∃ others,
      s.releasing = total Frame.requests stack + others ∧
      t.releasing = total Frame.requests moved + others := by
  obtain ⟨others, whole, moves⟩ := total_split (total Frame.requests) found
  exact ⟨others, whole, by rw [releasing, threads, moves]⟩

theorem releasing_same (found : s.threads[thread]? = some stack)
    (threads : t.threads = s.threads.set thread moved)
    (same : total Frame.requests moved = total Frame.requests stack) :
    t.releasing = s.releasing := by
  obtain ⟨others, before, after⟩ := releasing_moved found threads
  rw [before, after, same]

end State

theorem Memory.Pinned.mem_inUse_of_release (pinned : s.Pinned)
    (found : s.threads[thread]? = some (.release request :: rest)) : request.ptr ∈ s.inUse := by
  have member : request ∈ s.releasing := mem_total.mpr ⟨_, List.mem_of_getElem? found, by simp⟩
  exact pinned.mem_inUse (Memory.mem_active_of_releasing member) (pinned.releasing request member)

theorem control_requests (control : Control config s thread act stack moved) :
    total Frame.requests moved = total Frame.requests stack := by
  cases control <;> simp

/-- A step of the machine that does to the memory what an abstract step does. -/
theorem MemoryStep.refines {error : Prop} {m : Memory} (step : MemoryStep error t.posts t.ptrOf s.memory m)
    (inFlight : t.inFlight = m.inFlight) (releasing : t.releasing = m.releasing)
    (canceled : t.canceled = m.canceled) (freeing : t.freeing = m.freeing)
    (inUse : t.inUse = m.inUse) (ptrEvents : t.ptrEvents = m.ptrEvents)
    (requestData : t.requestData = m.requestData) :
    MemoryStep error t.posts t.ptrOf s.memory t.memory := by
  have whole : t.memory = m := by
    unfold memory
    rw [inFlight, releasing, canceled, freeing, inUse, ptrEvents, requestData]
  rwa [whole]

private theorem memory_attach {error : Prop} (request : UcxRequest) (post : Post) (pinned : s.Pinned)
    (fresh : request.ptr ∉ s.inUse) (new : request.op = s.posts.length)
    (posts : t.posts = s.posts ++ [post]) (made : post.inplace = false)
    (worker : ∀ comm, request.worker = some comm → post.kind = .send ∧ post.comm = comm)
    (learned : t.ptrOf request.op = some request.ptr) (releasing : t.releasing = s.releasing)
    (canceled : t.canceled = s.canceled) (freeing : t.freeing = s.freeing)
    (inFlight : t.inFlight = s.inFlight ++ [request]) (inUse : t.inUse = request.ptr :: s.inUse)
    (ptrEvents : t.ptrEvents = .lent request.ptr (some request.op) :: s.ptrEvents)
    (requestData : t.requestData =
      Function.update s.requestData request.ptr (.construct post.kind request.op)) :
    MemoryStep error t.posts t.ptrOf s.memory t.memory := by
  have unknown : request.op ∉ s.memory.active := by
    intro member
    have known := pinned.known _ member
    omega
  have posted : t.posts[request.op]? = some post := by simp [posts, new]
  exact (MemoryStep.attach request post fresh posted unknown made worker learned).refines inFlight
    releasing canceled freeing inUse ptrEvents requestData

theorem effect_memory (attached : s.Attached) (pinned : s.Pinned)
    (effect : Effect config s thread act t) :
    MemoryStep (s.failsRecv ⟨thread, act⟩ = true) t.posts t.ptrOf s.memory t.memory := by
  have canceled := effect_canceled effect
  have freeing := effect_freeing effect
  have keep : t.releasing = s.releasing → t.inFlight = s.inFlight → t.inUse = s.inUse →
      t.ptrEvents = s.ptrEvents → t.requestData = s.requestData →
      MemoryStep (s.failsRecv ⟨thread, act⟩ = true) t.posts t.ptrOf s.memory t.memory := by
    intro releasing inFlight inUse ptrEvents requestData
    exact MemoryStep.keep.refines inFlight releasing canceled freeing inUse ptrEvents requestData
  cases effect with
  | stale => exact .keep
  | nullSend => exact .keep
  | getCommunicator => exact keep rfl rfl rfl rfl rfl
  | badFree request rest found gone =>
    exact absurd (pinned.mem_inUse_of_release found) gone
  | control act stack moved found control =>
    exact keep (releasing_same found rfl (control_requests control)) rfl rfl rfl rfl
  | lock stack moved found free locks =>
    exact keep (releasing_same found rfl (by cases locks <;> simp)) rfl rfl rfl rfl
  | unlock user tries more rest found =>
    exact keep (releasing_same found rfl (by simp)) rfl rfl rfl rfl
  | runSend comm dst tag c rest found =>
    exact keep (releasing_same found rfl (by simp)) rfl rfl rfl rfl
  | queueSend comm dst tag c rest found =>
    exact keep (releasing_same found rfl (by simp)) rfl rfl rfl rfl
  | runEarly comm kind src tag rest found =>
    exact keep (releasing_same found rfl (by simp)) rfl rfl rfl rfl
  | deferEarly comm kind src tag ptr rest found =>
    exact keep (releasing_same found rfl (by simp)) rfl rfl rfl rfl
  | start op via rest found => exact keep (releasing_same found rfl (by simp)) rfl rfl rfl rfl
  | pop user stage op queue rest found =>
    exact keep (releasing_same found rfl (by simp)) rfl rfl rfl rfl
  | returnCallback op via rest found =>
    unfold State.returnCallback at keep ⊢
    split at keep
    · rename_i inplace
      rw [if_pos inplace]
      exact keep (releasing_same found rfl (by simp)) rfl rfl rfl rfl
    · rename_i request
      rw [if_neg request]
      exact keep (releasing_same found rfl (by simp)) rfl rfl rfl rfl
  | submitSend comm dst tag ptr rest found fresh =>
    let request : UcxRequest := { ptr, op := s.posts.length, worker := some comm }
    let post : Post := { comm, kind := .send, rank := dst, tag, inplace := false }
    refine memory_attach request post pinned fresh rfl rfl rfl ?_ ?_
      (releasing_same found rfl (by simp)) canceled freeing rfl rfl rfl rfl
    · intro other worker
      cases worker
      exact ⟨rfl, rfl⟩
    · simp [State.ptrOf, State.submitSend, request]
  | submitRecv comm kind src tag ptr rest found fresh =>
    let request : UcxRequest := { ptr, op := s.posts.length, worker := none }
    let post : Post := { comm, kind, rank := src, tag, inplace := false }
    refine memory_attach request post pinned fresh rfl rfl rfl nofun ?_
      (releasing_same found rfl (by simp)) canceled freeing rfl rfl rfl rfl
    simp [State.ptrOf, State.submitRecv, request]
  | early comm kind src tag ptr rest found fresh =>
    exact (MemoryStep.early ptr fresh).refines rfl (releasing_same found rfl (by simp)) canceled
      freeing rfl rfl rfl
  | truncated comm kind src tag ptr rest found fresh =>
    exact (MemoryStep.leak ptr rfl fresh).refines rfl (releasing_same found rfl (by simp)) canceled
      freeing rfl rfl rfl
  | sendOk comm request op rest found member =>
    refine (MemoryStep.sent request member).refines rfl ?_ canceled freeing rfl rfl rfl
    obtain ⟨others, before, after⟩ := releasing_moved (t := (s.takeRequest request).setStack thread
      (.invoke op (.sent comm) :: .release request :: .call (some comm) .sendLoop :: rest)) found rfl
    rw [after, show s.memory.releasing = _ from before]
    simp
  | sendFailed comm request rest found member =>
    refine (MemoryStep.sent request member).refines rfl ?_ canceled freeing rfl rfl rfl
    obtain ⟨others, before, after⟩ := releasing_moved
      (t := ((s.takeRequest request).drop request.op).setStack thread
        (.release request :: .call (some comm) .sendLoop :: rest)) found rfl
    rw [after, show s.memory.releasing = _ from before]
    simp
  | recvOwn user code request op shared rest found receives member =>
    exact (MemoryStep.finish request member).refines rfl rfl canceled freeing rfl rfl rfl
  | recvDirect user code request op shared rest found receives member =>
    exact (MemoryStep.finish request member).refines rfl (releasing_same found rfl (by simp))
      canceled freeing rfl rfl rfl
  | recvShared user code request op rest found receives member =>
    exact (MemoryStep.finish request member).refines rfl rfl canceled freeing rfl rfl rfl
  | recvEmpty user code request rest found receives member worker empty =>
    exact absurd empty (attached.not_empty member)
  | recvFailed user code request rest found receives member worker =>
    exact (MemoryStep.abandon request (failsRecv_failed worker) member).refines rfl (releasing_same found rfl (by simp))
      canceled freeing rfl rfl rfl
  | release request rest found =>
    obtain ⟨others, before, after⟩ := releasing_moved (t := (s.release request).setStack thread rest)
      found rfl
    have whole : s.releasing = request ::ₘ (total Frame.requests rest + others) := by
      rw [before]
      simp
    exact (MemoryStep.release request _ whole).refines rfl after canceled freeing rfl rfl rfl

private theorem filter_of_mem {queue : List Nat} (nodup : queue.Nodup) (member : op ∈ queue) :
    (queue : Multiset Nat) = op ::ₘ (queue.filter (· ≠ op) : List Nat) := by
  have same : queue.filter (· ≠ op) = queue.erase op := by
    rw [nodup.erase_eq_filter]
    refine List.filter_congr fun other _ => ?_
    rw [Bool.eq_iff_iff]
    simp
  rw [same, ← Multiset.coe_erase, Multiset.cons_erase (Multiset.mem_coe.mpr member)]

private theorem filter_of_not_mem {queue : List Nat} (outside : op ∉ queue) :
    queue.filter (· ≠ op) = queue :=
  List.filter_eq_self.mpr fun other member => by
    simp only [ne_eq, decide_eq_true_eq]
    rintro rfl
    exact outside member

namespace State

theorem canceled_enqueueCancelRecv (known : ∀ comm, user = some comm → comm < s.comms.length) :
    (s.enqueueCancelRecv user op).canceled = op ::ₘ s.canceled := by
  cases user with
  | none =>
    simp only [canceled, enqueueCancelRecv, onComm, Option.isNone_none, if_true,
      ← Multiset.coe_add, Multiset.coe_singleton, ← Multiset.singleton_add]
    abel
  | some comm =>
    obtain ⟨others, before, after⟩ := total_modify CommunicatorImpl.canceled
      (List.getElem?_eq_getElem (known comm rfl)) (.enqueueCancelRecv op)
    simp only [canceled, enqueueCancelRecv, onComm, Option.isNone_some, before, after,
      CommunicatorImpl.canceled, CommunicatorImpl.enqueueCancelRecv, Bool.false_eq_true, if_false,
      ← Multiset.coe_add, Multiset.coe_singleton, ← Multiset.singleton_add]
    abel

theorem canceled_takeCanceled_of_not_mem (config : Config) (thread : Nat)
    (outside : op ∉ s.cancelQueue user) :
    (s.takeCanceled config thread user op).canceled = s.canceled := by
  cases user with
  | none =>
    have same : s.cancelRecvReqQueue.filter (· ≠ op) = s.cancelRecvReqQueue :=
      filter_of_not_mem outside
    simp only [canceled, takeCanceled, onComm, Option.isNone_none, if_true, same]
  | some comm =>
    cases found : s.comms[comm]? with
    | none =>
      simp only [canceled, takeCanceled, onComm, List.modify_eq_set_getElem?, found,
        Option.isNone_some, Bool.false_eq_true, if_false]
      rfl
    | some c =>
      have outside : op ∉ c.cancelRecvReqQueue := by simpa [cancelQueue, found] using outside
      obtain ⟨others, before, after⟩ := total_modify CommunicatorImpl.canceled found
        (.removeCanceled op)
      simp only [canceled, takeCanceled, onComm, Option.isNone_some, before, after,
        CommunicatorImpl.canceled, CommunicatorImpl.removeCanceled, filter_of_not_mem outside,
        Bool.false_eq_true, if_false]

theorem canceled_takeCanceled_of_mem (config : Config) (thread : Nat) (nodup : s.canceled.Nodup)
    (member : op ∈ s.cancelQueue user) :
    s.canceled = op ::ₘ (s.takeCanceled config thread user op).canceled := by
  cases user with
  | none =>
    have nodup : (s.cancelRecvReqQueue : Multiset Nat).Nodup := (Multiset.nodup_add.mp nodup).2.1
    simp only [canceled, takeCanceled, onComm, Option.isNone_none, if_true]
    rw [filter_of_mem (Multiset.coe_nodup.mp nodup) member, Multiset.add_cons]
  | some comm =>
    cases found : s.comms[comm]? with
    | none => simp [cancelQueue, found] at member
    | some c =>
      have member : op ∈ c.cancelRecvReqQueue := by simpa [cancelQueue, found] using member
      obtain ⟨others, before, after⟩ := total_modify CommunicatorImpl.canceled found
        (.removeCanceled op)
      have nodup : (c.cancelRecvReqQueue : Multiset Nat).Nodup := by
        have all := (Multiset.nodup_add.mp nodup).1
        rw [before] at all
        exact (Multiset.nodup_add.mp all).1
      simp only [canceled, takeCanceled, onComm, Option.isNone_some, before, after,
        CommunicatorImpl.canceled, CommunicatorImpl.removeCanceled, Bool.false_eq_true, if_false]
      rw [filter_of_mem (Multiset.coe_nodup.mp nodup) member, Multiset.cons_add, Multiset.cons_add]

theorem mem_canceled_of_cancelQueue (member : op ∈ s.cancelQueue user) : op ∈ s.canceled := by
  cases user with
  | none => exact Multiset.mem_add.mpr (.inr member)
  | some comm =>
    cases found : s.comms[comm]? with
    | none => simp [cancelQueue, found] at member
    | some c =>
      have member : op ∈ c.cancelRecvReqQueue := by simpa [cancelQueue, found] using member
      exact Multiset.mem_add.mpr (.inl (mem_total.mpr ⟨c, List.mem_of_getElem? found, member⟩))

theorem Cancelable.active (cancelable : s.Cancelable op) : op ∈ s.memory.active := by
  rcases cancelable with ⟨request, member, rfl⟩ | waits | frees
  · exact Memory.mem_active_of_inFlight member
  · exact Memory.mem_active_of_canceled waits
  · exact Memory.mem_active_of_freeing frees

theorem freeing_moved (found : s.threads[thread]? = some stack)
    (threads : t.threads = s.threads.set thread moved) : ∃ others,
      s.freeing = total Frame.freeing stack + others ∧
      t.freeing = total Frame.freeing moved + others := by
  obtain ⟨others, whole, moves⟩ := total_split (total Frame.freeing) found
  exact ⟨others, whole, by rw [freeing, threads, moves]⟩

theorem freeing_same (found : s.threads[thread]? = some stack)
    (threads : t.threads = s.threads.set thread moved)
    (same : total Frame.freeing moved = total Frame.freeing stack) : t.freeing = s.freeing := by
  obtain ⟨others, before, after⟩ := freeing_moved found threads
  rw [before, after, same]

theorem mem_freeing (found : s.threads[thread]? = some (.call user (.cancelFree op) :: rest)) :
    op ∈ s.freeing :=
  mem_total.mpr ⟨_, List.mem_of_getElem? found, by simp⟩

/-- In a careful run the search finds a receive only if it is in the queue. -/
theorem mem_cancelQueue_of_found (careful : s.careful thread = true)
    (found : s.threads[thread]? = some (.call user (.cancelScan op) :: rest))
    (finds : s.foundCanceled thread user op = true) : op ∈ s.cancelQueue user := by
  cases user with
  | some comm => simpa [foundCanceled] using finds
  | none =>
    have careful : s.found thread = false ∨ op ∈ s.cancelQueue none := by
      simpa [State.careful, found] using careful
    rcases careful with unset | member
    · simpa [foundCanceled, unset] using finds
    · exact member

theorem cancelable_of_careful (careful : s.careful thread = true)
    (found : s.threads[thread]? = some (.call user (.cancelLock op) :: rest)) :
    s.Cancelable op := by
  simpa [State.careful, found] using careful

end State

theorem Memory.Pinned.inFlight_of_free (pinned : s.Pinned)
    (found : s.threads[thread]? = some (.call user (.cancelFree op) :: rest))
    (known : (s.heap op).ucxPtr = some ptr) : s.inFlight.filter (·.ptr ≠ ptr) = s.inFlight := by
  refine List.filter_eq_self.mpr fun request member => decide_eq_true ?_
  have freed : op ∈ s.freeing := mem_freeing found
  exact pinned.kept.ne (Memory.mem_active_of_inFlight member) (Memory.mem_active_of_freeing freed)
    (pinned.inFlight request member) known (pinned.op_ne member (Multiset.mem_add.mpr (.inr freed)))

private theorem exists_request {code : Code} (pinned : s.Pinned) (careful : s.careful thread = true)
    (found : s.threads[thread]? = some (.call user code :: rest))
    (works : code = .cancelLock op ∨ code = .cancelFree op ∨
      code = .cancelScan op ∧ s.foundCanceled thread user op = true) :
    ∃ ptr ∈ s.inUse, (s.heap op).ucxPtr = some ptr := by
  have active : op ∈ s.memory.active := by
    rcases works with rfl | rfl | ⟨rfl, finds⟩
    · exact (cancelable_of_careful careful found).active
    · exact Memory.mem_active_of_freeing (mem_freeing found)
    · exact Memory.mem_active_of_canceled
        (mem_canceled_of_cancelQueue (mem_cancelQueue_of_found careful found finds))
  obtain ⟨ptr, known, held⟩ := pinned.kept op active
  exact ⟨ptr, pinned.ledger.mem_of_holder held, known⟩

theorem cancelEffect_memory (settled : s.Settled) (attached : s.Attached) (pinned : s.Pinned)
    (careful : s.careful thread = true) (effect : CancelEffect config s thread act t) :
    MemoryStep False t.posts t.ptrOf s.memory t.memory := by
  cases effect with
  | refuse => exact .keep
  | again => exact .keep
  | canceledNull user code request rest found receives member asked empty =>
    exact absurd empty (attached.not_empty member)
  | bad user code op rest t found works gone =>
    obtain ⟨ptr, live, known⟩ := exists_request pinned careful found works
    exact absurd known (gone ptr live)
  | begin op post stack found =>
    exact MemoryStep.keep.refines rfl (releasing_same found rfl (by simp)) rfl
      (freeing_same found rfl (by simp)) rfl rfl rfl
  | ask user op ptr rest found free known live =>
    have active := (cancelable_of_careful careful found).active
    exact (MemoryStep.ask op ptr active known).refines rfl (releasing_same found rfl (by simp)) rfl
      (freeing_same found rfl (by simp)) rfl rfl rfl
  | sendCanceled comm request rest found member =>
    refine (MemoryStep.sent request member).refines rfl ?_ rfl
      (freeing_same found rfl (by simp)) rfl rfl rfl
    obtain ⟨others, before, after⟩ := releasing_moved
      (t := ((s.takeRequest request).drop request.op).setStack thread
        (.release request :: .call (some comm) .sendLoop :: rest)) found rfl
    rw [after, show s.memory.releasing = _ from before]
    simp
  | canceledOwn user code request op shared rest found receives member worker asked data =>
    obtain ⟨rfl, post, posted, made, own⟩ := attached.own settled member data
    refine (MemoryStep.cancel request member).refines rfl rfl ?_ rfl rfl rfl rfl
    refine canceled_enqueueCancelRecv fun comm same => ?_
    cases same
    rw [settled.comm_eq posted made]
    exact settled.owned post (List.mem_of_getElem? posted)
  | canceledShared user code request op rest found receives member worker asked data =>
    obtain ⟨rfl, _⟩ := attached.shared member data
    exact (MemoryStep.cancel request member).refines rfl rfl (canceled_enqueueCancelRecv nofun)
      rfl rfl rfl rfl
  | looped user op rest found =>
    cases user <;> exact MemoryStep.keep.refines rfl (releasing_same found rfl (by simp)) rfl
      (freeing_same found rfl (by simp)) rfl rfl rfl
  | missed user op rest found misses =>
    have outside : op ∉ s.cancelQueue user := by
      cases user <;> simp_all [foundCanceled]
    exact MemoryStep.keep.refines rfl (releasing_same found rfl (by simp))
      (canceled_takeCanceled_of_not_mem config thread outside) (freeing_same found rfl (by simp)) rfl rfl rfl
  | withdraw user op ptr rest found finds known live =>
    have member := mem_cancelQueue_of_found careful found finds
    have nodup : s.canceled.Nodup :=
      (Multiset.nodup_add.mp (Multiset.nodup_add.mp (Multiset.nodup_add.mp pinned.nodup).2.1).1).2.1
    have whole := canceled_takeCanceled_of_mem config thread nodup member
    refine (MemoryStep.withdraw op ptr _ whole ?_).refines rfl (releasing_same found rfl (by simp)) rfl
      ?_ rfl rfl rfl
    · simp [State.ptrOf, known]
    · obtain ⟨others, before, after⟩ := freeing_moved
        (t := s.setStack thread (.call user (.cancelFree op) :: rest)) found rfl
      change (s.setStack thread (.call user (.cancelFree op) :: rest)).freeing = op ::ₘ s.freeing
      rw [before, after]
      simp
  | free user op ptr rest found free known live =>
    obtain ⟨others, before, after⟩ := freeing_moved (t := s.setStack thread rest) found rfl
    have whole : s.freeing = op ::ₘ (total Frame.freeing rest + others) := by
      rw [before]
      simp
    exact (MemoryStep.free op ptr _ whole known).refines (pinned.inFlight_of_free found known)
      (releasing_same found rfl (by simp)) rfl after rfl rfl rfl

namespace State

structure Sound (s : State) : Prop where
  settled : s.Settled
  pinned : s.Pinned
  attached : s.Attached
  fault : s.fault = none

namespace Sound

theorem initial (threads : Nat) : (State.initial threads).Sound where
  settled := .initial threads
  pinned := by
    have nothing : (State.initial threads).releasing = 0 := total_replicate threads rfl
    have unfreed : (State.initial threads).freeing = 0 := total_replicate threads rfl
    have idle : (State.initial threads).memory.active = 0 := by
      simp only [Memory.active, memory, nothing, unfreed]
      simp [State.initial, canceled]
    refine ⟨⟨trivial, List.nodup_nil, by simp [memory, State.initial, Lease.holder]⟩, ?_, ?_, ?_, ?_, ?_⟩
    · rw [idle]
      exact Multiset.nodup_zero
    · rw [idle]
      simp
    · rw [idle]
      exact fun _ member => absurd member (Multiset.notMem_zero _)
    · exact fun request member => by cases member
    · intro request member
      change request ∈ (State.initial threads).releasing at member
      rw [nothing] at member
      exact absurd member (Multiset.notMem_zero _)
  attached := by
    have nothing : (State.initial threads).freeing = 0 := total_replicate threads rfl
    refine ⟨(fun request member => by cases member), (fun op member => ?_), fun _ _ => rfl⟩
    change op ∈ (State.initial threads).freeing at member
    rw [nothing] at member
    exact absurd member (Multiset.notMem_zero _)
  fault := rfl

theorem effect_fault (sound : s.Sound) (effect : Effect config s thread act t) : t.fault = none := by
  have none := sound.fault
  cases effect with
  | stale comm kind src tag ptr rest found free dirty =>
    exact absurd (sound.attached.clean ptr free) dirty
  | nullSend comm request rest found member worker get =>
    rw [sound.attached.get member] at get
    cases get
  | badFree request rest found gone =>
    exact absurd (sound.pinned.mem_inUse_of_release found) gone
  | returnCallback op via =>
    unfold State.returnCallback
    split <;> exact none
  | _ => exact none

theorem cancelEffect_fault (sound : s.Sound) (careful : s.careful thread = true)
    (effect : CancelEffect config s thread act t) : t.fault = none := by
  have none := sound.fault
  cases effect with
  | bad user code op rest t found works gone =>
    obtain ⟨ptr, live, known⟩ := exists_request sound.pinned careful found works
    exact absurd known (gone ptr live)
  | canceledNull user code request rest found receives member asked empty =>
    exact absurd empty (sound.attached.not_empty member)
  | looped user => cases user <;> exact none
  | _ => exact none

private theorem of_steps {error : Prop} (sound : s.Sound) (settled : t.Settled)
    (records : RecordStep s t)
    (memory : MemoryStep error t.posts t.ptrOf s.memory t.memory) (fault : t.fault = none) : t.Sound := by
  have same : ∀ op < s.posts.length, t.ptrOf op = s.ptrOf op := fun _ known => records.ucxPtr known
  have pinned := sound.pinned.grow records.grown same
  exact ⟨settled, pinned.step memory,
    (sound.attached.grow sound.pinned records.grown same).step pinned memory, fault⟩

theorem effect (sound : s.Sound) (effect : Effect config s thread act t) : t.Sound :=
  sound.of_steps (sound.settled.effect sound.attached effect) (effect_records effect)
    (effect_memory sound.attached sound.pinned effect) (sound.effect_fault effect)

theorem cancelEffect (sound : s.Sound) (careful : s.careful thread = true)
    (effect : CancelEffect config s thread act t) : t.Sound := by
  have fault := sound.cancelEffect_fault careful effect
  exact sound.of_steps (sound.settled.cancelEffect sound.attached effect fault)
    (cancelEffect_records effect fault)
    (cancelEffect_memory sound.settled sound.attached sound.pinned careful effect) fault

end Sound

end State

end Oomph.Ucx
