import Oomph.Ucx.Careful
import Oomph.Ledger

namespace Oomph.Ucx

open Machine State

namespace Frame

def waiting : Frame → Multiset Nat
  | .invoke op _ => {op}
  | _ => 0

def running : Frame → Multiset Nat
  | .callback op _ => {op}
  | _ => 0

end Frame

attribute [simp] Frame.waiting Frame.running

namespace State

def stored (s : State) : Multiset Nat :=
  (s.inFlight.map UcxRequest.op : Multiset Nat) + total CommunicatorImpl.waiting s.comms +
    (s.recvReqQueue + s.cancelRecvReqQueue) + s.dropped

def waiting (s : State) : Multiset Nat :=
  s.stored + total (total Frame.waiting) s.threads

def running (s : State) : Multiset Nat :=
  total (total Frame.running) s.threads

def books (s : State) : Books Post Counter where
  attrs := s.posts
  waiting := s.waiting
  running := s.running
  called := Event.calledOps s.history
  returned := Event.returnedOps s.history
  withdrawn := Event.canceledOps s.history
  outstanding := s.scheduled

def ledger (s : State) : Ledger Frame :=
  ⟨s.posts, s.threads, s.stored, s.history, s.scheduled⟩

theorem books_eq (s : State) : s.books = s.ledger.books Frame.waiting Frame.running := rfl

end State

variable {config : Config} {s t : State} {thread : Nat} {stack moved rest : List Frame}
  {act : Act} {frame : Frame} {op comm ptr : Nat} {user : Option Nat} {request : UcxRequest}
  {c : CommunicatorImpl} {change : CommunicatorImpl → CommunicatorImpl}

namespace State

theorem stored_modifyComm (change : CommunicatorImpl → CommunicatorImpl)
    (found : s.comms[comm]? = some c) (before after : Multiset Nat)
    (moves : after + c.waiting = before + (change c).waiting) :
    after + s.stored = before + (s.modifyComm comm change).stored := by
  obtain ⟨others, whole, changed⟩ := total_modify CommunicatorImpl.waiting found change
  simp only [stored, modifyComm_inFlight, modifyComm_comms, modifyComm_recvReqQueue,
    modifyComm_cancelRecvReqQueue, modifyComm_dropped, whole, changed]
  calc after + (↑(s.inFlight.map UcxRequest.op) + (c.waiting + others) +
        (↑s.recvReqQueue + ↑s.cancelRecvReqQueue) + ↑s.dropped)
      = (after + c.waiting) + (↑(s.inFlight.map UcxRequest.op) + others +
          (↑s.recvReqQueue + ↑s.cancelRecvReqQueue) + ↑s.dropped) := by abel
    _ = _ := by rw [moves]; abel

theorem stored_modifyComm_same (comm : Nat) (same : ∀ c, (change c).waiting = c.waiting) :
    (s.modifyComm comm change).stored = s.stored := by
  simp only [stored, modifyComm_inFlight, modifyComm_comms, modifyComm_recvReqQueue,
    modifyComm_cancelRecvReqQueue, modifyComm_dropped, total_modify_same _ _ _ same]

theorem stored_push (known : comm < s.comms.length)
    (pushed : ∀ c, (change c).waiting = {op} + c.waiting) :
    (s.modifyComm comm change).stored = {op} + s.stored := by
  have moved := stored_modifyComm change (List.getElem?_eq_getElem known) 0 {op}
    (by rw [pushed, zero_add])
  rw [moved, zero_add]

theorem stored_pop (found : s.comms[comm]? = some c) (popped : c.waiting = {op} + (change c).waiting) :
    s.stored = {op} + (s.modifyComm comm change).stored := by
  have moved := stored_modifyComm change found {op} 0 (by rw [popped, zero_add])
  rw [← moved, zero_add]

theorem stored_incRecursion (via : Via) : (s.incRecursion via).stored = s.stored := by
  cases via with
  | immediate comm => exact stored_modifyComm_same (s := s) comm fun _ => by rfl
  | early user =>
    cases user with
    | some comm => exact stored_modifyComm_same (s := s) comm fun _ => by rfl
    | none => rfl
  | _ => rfl

theorem stored_decRecursion (via : Via) : (s.decRecursion via).stored = s.stored := by
  cases via with
  | immediate comm => exact stored_modifyComm_same (s := s) comm fun _ => by rfl
  | early user =>
    cases user with
    | some comm => exact stored_modifyComm_same (s := s) comm fun _ => by rfl
    | none => rfl
  | _ => rfl

theorem stored_addCommunicator : (s.addCommunicator thread).stored = s.stored := by
  simp [stored, CommunicatorImpl.waiting]

theorem stored_enqueueRecv (known : ∀ comm, user = some comm → comm < s.comms.length) :
    (s.enqueueRecv user op).stored = {op} + s.stored := by
  cases user with
  | some comm => exact stored_push (known comm rfl) (CommunicatorImpl.waiting_enqueueRecv op)
  | none =>
    simp only [stored, enqueueRecv, onComm, Option.isNone_none, if_true, ← Multiset.coe_add,
      Multiset.coe_singleton]
    abel

theorem stored_enqueueCancelRecv (known : ∀ comm, user = some comm → comm < s.comms.length) :
    (s.enqueueCancelRecv user op).stored = {op} + s.stored := by
  cases user with
  | some comm => exact stored_push (known comm rfl) (CommunicatorImpl.waiting_enqueueCancelRecv op)
  | none =>
    simp only [stored, enqueueCancelRecv, onComm, Option.isNone_none, if_true, ← Multiset.coe_add,
      Multiset.coe_singleton]
    abel

theorem stored_setReqQueue {stage : Drain} {queue : List Nat}
    (waits : s.reqQueue stage = op :: queue) :
    s.stored = {op} + (s.setReqQueue stage queue).stored := by
  cases stage with
  | shared =>
    have whole : s.recvReqQueue = op :: queue := waits
    simp only [stored, setReqQueue, whole, ← Multiset.cons_coe, ← Multiset.singleton_add]
    abel
  | sends comm =>
    cases found : s.comms[comm]? with
    | none => simp [reqQueue, found] at waits
    | some c =>
      have whole : c.sendReqQueue = op :: queue := by simpa [reqQueue, found] using waits
      apply stored_pop found
      simp only [CommunicatorImpl.waiting, whole, ← Multiset.cons_coe, ← Multiset.singleton_add]
      abel
  | recvs comm =>
    cases found : s.comms[comm]? with
    | none => simp [reqQueue, found] at waits
    | some c =>
      have whole : c.recvReqQueue = op :: queue := by simpa [reqQueue, found] using waits
      apply stored_pop found
      simp only [CommunicatorImpl.waiting, whole, ← Multiset.cons_coe, ← Multiset.singleton_add]
      abel

theorem stored_attach (request : UcxRequest) (kind : Kind) :
    (s.attach request kind).stored = {request.op} + s.stored := by
  simp only [stored, attach, List.map_append, List.map_cons, List.map_nil, ← Multiset.coe_add,
    Multiset.coe_singleton]
  abel

theorem stored_takeRequest (member : request ∈ s.inFlight) :
    s.stored = {request.op} + (s.takeRequest request).stored := by
  have whole : (s.inFlight.map UcxRequest.op : Multiset Nat) =
      {request.op} + ((s.inFlight.erase request).map UcxRequest.op : List Nat) := by
    rw [Multiset.singleton_add, ← Multiset.map_coe, ← Multiset.map_coe, ← Multiset.coe_erase,
      ← Multiset.map_cons, Multiset.cons_erase (Multiset.mem_coe.mpr member)]
  simp only [stored, takeRequest, whole]
  abel

theorem stored_drop (op : Nat) : (s.drop op).stored = {op} + s.stored := by
  simp only [stored, drop, ← Multiset.cons_coe, ← Multiset.singleton_add]
  abel

/-- The operations of a communicator that only wait for their callback. -/
private def callable (c : CommunicatorImpl) : Multiset Nat :=
  c.sendReqQueue + c.recvReqQueue

private def elsewhere (s : State) : Multiset Nat :=
  (s.inFlight.map UcxRequest.op : Multiset Nat) + total callable s.comms + s.recvReqQueue + s.dropped

private theorem stored_eq_elsewhere (s : State) : s.stored = s.elsewhere + s.canceled := by
  have split : total CommunicatorImpl.waiting s.comms =
      total callable s.comms + total CommunicatorImpl.canceled s.comms := total_add _ _ _
  simp only [stored, elsewhere, canceled, split]
  abel

private theorem elsewhere_takeCanceled :
    (s.takeCanceled config thread user op).elsewhere = s.elsewhere := by
  cases user with
  | none => rfl
  | some comm =>
    have same : ∀ c, callable (.removeCanceled op c) = callable c := fun _ => rfl
    simp only [elsewhere, takeCanceled, onComm, total_modify_same callable _ _ same]

theorem stored_takeCanceled_of_not_mem (config : Config) (thread : Nat)
    (outside : op ∉ s.cancelQueue user) :
    (s.takeCanceled config thread user op).stored = s.stored := by
  rw [stored_eq_elsewhere, stored_eq_elsewhere, elsewhere_takeCanceled,
    canceled_takeCanceled_of_not_mem config thread outside]

theorem stored_takeCanceled_of_mem (config : Config) (thread : Nat) (nodup : s.canceled.Nodup)
    (member : op ∈ s.cancelQueue user) :
    s.stored = {op} + (s.takeCanceled config thread user op).stored := by
  rw [stored_eq_elsewhere, stored_eq_elsewhere, elsewhere_takeCanceled,
    canceled_takeCanceled_of_mem config thread nodup member, ← Multiset.singleton_add]
  abel

end State

theorem control_waiting (control : Control config s thread act stack moved) :
    total Frame.waiting moved = total Frame.waiting stack := by
  cases control <;> simp

theorem control_running (control : Control config s thread act stack moved) :
    total Frame.running moved = total Frame.running stack := by
  cases control <;> simp

theorem books_kept (found : s.threads[thread]? = some stack)
    (threads : t.threads = s.threads.set thread moved) (posts : t.posts = s.posts)
    (scheduled : t.scheduled = s.scheduled) (history : t.history = s.history)
    (stored : t.stored = s.stored) (waits : total Frame.waiting moved = total Frame.waiting stack)
    (runs : total Frame.running moved = total Frame.running stack) : t.books = s.books := by
  rw [books_eq, books_eq]
  exact Ledger.books_same found threads posts scheduled history
    (congrArg₂ _ stored waits) runs

theorem State.Settled.requestState (settled : s.Settled) (belongs : Belongs s.posts user op) :
    (s.heap op).cb = op ∧
      Books.keyOf Post.counter s.posts op = some (s.heap op).scheduled := by
  obtain ⟨post, found, made, _⟩ := belongs
  have identity := settled.recorded op post found made
  refine ⟨congrArg RequestStateBase.cb identity, ?_⟩
  simp only [Books.keyOf, found, Option.bind_some, Post.counter, made, Bool.false_eq_true, if_false]
  exact congrArg some (congrArg RequestStateBase.scheduled identity).symm

theorem State.Settled.head (settled : s.Settled) (found : s.threads[thread]? = some (frame :: rest)) :
    frame.Fits s.comms.length s.posts :=
  settled.frames _ (List.mem_of_getElem? found) _ List.mem_cons_self

theorem entry_start (settled : s.Settled) {via : Via}
    (found : s.threads[thread]? = some (.invoke op via :: rest)) :
    Books.Entry Post.counter s.books (s.start thread op via rest).books := by
  obtain ⟨cb, _⟩ := settled.requestState (settled.head found).1
  rw [books_eq, books_eq]
  refine Ledger.start found rfl op (s.heap op).rank (s.heap op).tag rfl rfl
    (by simp [ledger, State.start, cb]) ?_ (by simp)
  change s.stored + _ = {op} + (s.stored + _)
  simp only [total_cons, Frame.waiting, zero_add]
  abel

theorem entry_return (settled : s.Settled) {via : Via}
    (found : s.threads[thread]? = some (.callback op via :: rest)) :
    Books.Entry Post.counter s.books (s.returnCallback thread op via rest).books := by
  obtain ⟨post, posted, inplace, own⟩ := settled.head found
  rw [books_eq, books_eq]
  unfold State.returnCallback
  split
  · rename_i direct
    refine Ledger.finish found rfl op rfl ?_ rfl
      (congrArg₂ _ (stored_decRecursion (s := s.log _) via) (by simp)) (by simp)
    simp [ledger, Books.keyOf, posted, Post.counter, inplace, direct, Books.adjust]
  · rename_i request
    have made : post.inplace = false := by simpa [inplace] using request
    obtain ⟨cb, counter⟩ := settled.requestState ⟨post, posted, made, own⟩
    exact Ledger.finish found rfl op rfl (by simp [ledger, counter, countDown_eq_adjust])
      (by simp [ledger, cb]) (congrArg₂ _ rfl (by simp)) (by simp)

private theorem no_entry {key : Post → Option Counter} {before after : Books Post Counter}
    (same : after = before) : Relation.ReflGen (Books.Entry key) before after := by
  rw [same]

private theorem set_found {Item : Type} {items : List Item} {i : Nat} {item : Item}
    (found : items[i]? = some item) : items = items.set i item := by
  obtain ⟨inside, rfl⟩ := List.getElem?_eq_some_iff.mp found
  exact (List.set_getElem_self inside).symm

theorem State.Settled.known (settled : s.Settled) (belongs : Belongs s.posts user op) (comm : Nat)
    (owned : user = some comm) : comm < s.comms.length := by
  obtain ⟨post, posted, _, own⟩ := belongs
  have same : post.comm = comm := by
    rw [owned] at own
    cases kind : post.kind with
    | sharedRecv => simp [kind, userOf] at own
    | _ => simpa [kind, userOf] using own
  exact same ▸ settled.owned post (List.mem_of_getElem? posted)

private theorem stored_handed (t : State) (member : request ∈ s.inFlight)
    (stored : t.stored = {request.op} + (s.takeRequest request).stored) : t.stored = s.stored := by
  rw [stored, stored_takeRequest member]

theorem effect_entry (settled : s.Settled) (attached : s.Attached)
    (effect : Effect config s thread act t) :
    Relation.ReflGen (Books.Entry Post.counter) s.books t.books := by
  cases effect with
  | stale => exact .refl
  | nullSend => exact .refl
  | badFree => exact .refl
  | getCommunicator =>
    refine no_entry ?_
    have waiting : (s.addCommunicator thread).waiting = s.waiting := by
      rw [State.waiting, stored_addCommunicator]
      rfl
    simp only [State.books, waiting]
    rfl
  | control act stack moved found control =>
    exact no_entry (books_kept found rfl rfl rfl rfl rfl (control_waiting control)
      (control_running control))
  | lock stack moved found free locks =>
    cases locks <;> exact no_entry (books_kept found rfl rfl rfl rfl rfl (by simp) (by simp))
  | unlock user tries more rest found =>
    exact no_entry (books_kept found rfl rfl rfl rfl rfl (by simp) (by simp))
  | runSend comm dst tag c rest found =>
    rw [books_eq, books_eq]
    refine .single (Ledger.issueRunning found rfl
      { comm, kind := .send, rank := dst, tag, inplace := true } rfl rfl dst tag rfl
      (congrArg₂ _ ?_ (by simp)) (by simp [ledger]))
    exact stored_incRecursion (s := s.addPost _) (.immediate comm)
  | queueSend comm dst tag c rest found owner =>
    rw [books_eq, books_eq]
    refine .single (Ledger.issue found rfl
      { comm, kind := .send, rank := dst, tag, inplace := false } rfl rfl rfl
      (Ledger.wait_of_stored ?_ (by simp)) (by simp))
    exact stored_push (s := s.create comm .send dst tag none)
      (List.getElem?_eq_some_iff.mp owner).1 (CommunicatorImpl.waiting_enqueueSend _)
  | submitSend comm dst tag ptr rest found =>
    rw [books_eq, books_eq]
    refine .single (Ledger.issue found rfl
      { comm, kind := .send, rank := dst, tag, inplace := false } rfl rfl rfl
      (Ledger.wait_of_stored ?_ (by simp)) (by simp))
    exact stored_attach (s := s.create comm .send dst tag (some ptr)) _ .send
  | submitRecv comm kind src tag ptr rest found =>
    rw [books_eq, books_eq]
    refine .single (Ledger.issue found rfl
      { comm, kind, rank := src, tag, inplace := false } rfl rfl rfl
      (Ledger.wait_of_stored ?_ (by simp)) (by simp))
    exact stored_attach (s := s.create comm kind src tag (some ptr)) _ kind
  | early comm kind src tag ptr rest found =>
    exact no_entry (books_kept found rfl rfl rfl rfl rfl (by simp) (by simp))
  | truncated comm kind src tag ptr rest found =>
    exact no_entry (books_kept found rfl rfl rfl rfl rfl (by simp) (by simp))
  | runEarly comm kind src tag rest found =>
    rw [books_eq, books_eq]
    refine .single (Ledger.issueRunning found rfl
      { comm, kind, rank := src, tag, inplace := true } rfl rfl src tag rfl
      (congrArg₂ _ ?_ (by simp)) (by simp [ledger]))
    exact stored_incRecursion (s := (s.addPost _).complete _) (.early (userOf comm kind))
  | deferEarly comm kind src tag ptr rest found =>
    rw [books_eq, books_eq]
    refine .single (Ledger.issue found rfl
      { comm, kind, rank := src, tag, inplace := false } rfl rfl rfl
      (Ledger.wait_of_stored ?_ (by simp)) (by simp))
    refine stored_enqueueRecv (s := ((s.create comm kind src tag (some ptr)).complete _).defer _)
      fun owner same => ?_
    have called := (settled.head found).1 comm rfl
    cases kind with
    | sharedRecv => cases same
    | _ => cases same; exact called
  | sendOk comm request op rest found member worker get =>
    obtain ⟨rfl, _⟩ := attached.sent member worker get
    rw [books_eq, books_eq]
    refine no_entry (Ledger.books_same found rfl rfl rfl rfl
      ?_ (by simp))
    change (s.takeRequest request).stored + _ = s.stored + _
    rw [stored_takeRequest member]
    simp only [total_cons, Frame.waiting, zero_add]
    abel
  | sendFailed comm request rest found member =>
    exact no_entry (books_kept found rfl rfl rfl rfl (stored_handed _ member (stored_drop _))
      (by simp) (by simp))
  | recvOwn user code request op shared rest found receives member worker data =>
    obtain ⟨rfl, belongs⟩ := attached.own settled member data
    refine no_entry (books_kept found (set_found found) rfl rfl rfl ?_ rfl rfl)
    exact stored_handed _ member (stored_enqueueRecv
      (s := ((s.takeRequest request).complete request.op).release request) (settled.known belongs))
  | recvDirect user code request op shared rest found receives member worker data =>
    obtain ⟨rfl, _⟩ := attached.own settled member data
    rw [books_eq, books_eq]
    refine no_entry (Ledger.books_same found rfl rfl rfl rfl
      ?_ (by simp))
    change (s.takeRequest request).stored + _ = s.stored + _
    rw [stored_takeRequest member]
    simp only [total_cons, Frame.waiting]
    abel
  | recvShared user code request op rest found receives member worker data =>
    obtain ⟨rfl, _⟩ := attached.shared member data
    refine no_entry (books_kept found (set_found found) rfl rfl rfl ?_ rfl rfl)
    exact stored_handed _ member (stored_enqueueRecv
      (s := ((s.takeRequest request).complete request.op).release request) nofun)
  | recvEmpty user code request rest found receives member worker data =>
    exact no_entry (books_kept found (set_found found) rfl rfl rfl
      (stored_handed _ member (stored_drop _)) rfl rfl)
  | recvFailed user code request rest found receives member =>
    exact no_entry (books_kept found rfl rfl rfl rfl (stored_handed _ member (stored_drop _))
      (by simp) (by simp))
  | start op via rest found => exact .single (entry_start settled found)
  | returnCallback op via rest found => exact .single (entry_return settled found)
  | release request rest found =>
    exact no_entry (books_kept found rfl rfl rfl rfl rfl (by simp) (by simp))
  | pop user stage op queue rest found waits =>
    rw [books_eq, books_eq]
    refine no_entry (Ledger.books_same found rfl rfl rfl rfl
      ?_ (by simp))
    change (s.setReqQueue stage queue).stored + _ = s.stored + _
    rw [stored_setReqQueue waits]
    simp only [total_cons, Frame.waiting]
    abel

theorem State.canceled_nodup (pinned : s.Pinned) : s.canceled.Nodup :=
  (Multiset.nodup_add.mp (Multiset.nodup_add.mp (Multiset.nodup_add.mp pinned.nodup).2.1).1).2.1

theorem entry_withdraw (sound : s.Sound)
    (found : s.threads[thread]? = some (.call user (.cancelScan op) :: rest))
    (member : op ∈ s.cancelQueue user) :
    Books.Entry Post.counter s.books
      ((((((s.takeCanceled config thread user op).releaseSelfRef op).setCanceled op).logPtr
        (.used ptr (some op))).destroyData ptr).setStack thread
          (.call user (.cancelFree op) :: rest)).books := by
  obtain ⟨cb, counter⟩ := sound.settled.requestState ((sound.settled.head found).2 op rfl).1
  rw [books_eq, books_eq]
  refine Ledger.withdraw found rfl op rfl (by simp [ledger, counter, countDown_eq_adjust])
    (by simp [ledger, cb]) ?_ (by simp)
  change s.stored + _ = {op} + ((s.takeCanceled config thread user op).stored + _)
  rw [stored_takeCanceled_of_mem config thread (canceled_nodup sound.pinned) member, add_assoc]
  simp

theorem cancelEffect_entry (sound : s.Sound) (careful : s.careful thread = true)
    (effect : CancelEffect config s thread act t) :
    Relation.ReflGen (Books.Entry Post.counter) s.books t.books := by
  have faultless := sound.cancelEffect_fault careful effect
  cases effect with
  | refuse => exact .refl
  | again => exact .refl
  | bad user code op rest t found works gone fault => simp [faultless] at fault
  | canceledNull => cases faultless
  | begin op post stack found =>
    exact no_entry (books_kept found rfl rfl rfl rfl rfl (by simp) (by simp))
  | ask user op ptr rest found =>
    exact no_entry (books_kept found rfl rfl rfl rfl rfl (by simp) (by simp))
  | sendCanceled comm request rest found member =>
    exact no_entry (books_kept found rfl rfl rfl rfl (stored_handed _ member (stored_drop _))
      (by simp) (by simp))
  | canceledOwn user code request op shared rest found receives member worker asked data =>
    obtain ⟨rfl, belongs⟩ := sound.attached.own sound.settled member data
    refine no_entry (books_kept found (set_found found) rfl rfl rfl ?_ rfl rfl)
    exact stored_handed _ member (stored_enqueueCancelRecv (s := s.takeRequest request)
      (sound.settled.known belongs))
  | canceledShared user code request op rest found receives member worker asked data =>
    obtain ⟨rfl, _⟩ := sound.attached.shared member data
    refine no_entry (books_kept found (set_found found) rfl rfl rfl ?_ rfl rfl)
    exact stored_handed _ member (stored_enqueueCancelRecv (s := s.takeRequest request) nofun)
  | looped user op rest found =>
    cases user <;> exact no_entry (books_kept found rfl rfl rfl rfl rfl (by simp) (by simp))
  | missed user op rest found misses =>
    have outside : op ∉ s.cancelQueue user := by
      cases user <;> simp_all [foundCanceled]
    exact no_entry (books_kept found rfl rfl rfl rfl
      (stored_takeCanceled_of_not_mem config thread outside) (by simp) (by simp))
  | withdraw user op ptr rest found finds =>
    exact .single (entry_withdraw sound found (mem_cancelQueue_of_found careful found finds))
  | free user op ptr rest found free known =>
    refine no_entry (books_kept found rfl rfl rfl rfl ?_ (by simp) (by simp))
    simp only [State.stored, setStack, returnCancel, requestFree, logPtr,
      sound.pinned.inFlight_of_free found known]

structure State.Accounted (s : State) : Prop extends s.Sound where
  consistent : s.books.Consistent Post.counter

theorem State.Accounted.initial (threads : Nat) : (State.initial threads).Accounted where
  toSound := .initial threads
  consistent := Ledger.consistent_initial Frame.waiting Frame.running threads

theorem State.Accounted.effect (accounted : s.Accounted) (effect : Effect config s thread act t) :
    t.Accounted where
  toSound := accounted.toSound.effect effect
  consistent := accounted.consistent.entries
    (effect_entry accounted.settled accounted.attached effect)

theorem State.Accounted.cancelEffect (accounted : s.Accounted) (careful : s.careful thread = true)
    (effect : CancelEffect config s thread act t) : t.Accounted where
  toSound := accounted.toSound.cancelEffect careful effect
  consistent := accounted.consistent.entries
    (cancelEffect_entry accounted.toSound careful effect)

theorem State.Accounted.step {action : Action} (accounted : s.Accounted) (careful : Careful s action)
    (taken : step config s action = some t) : t.Accounted := by
  rcases step_cases taken with effect | effect
  · exact accounted.effect effect
  · exact accounted.cancelEffect careful effect

end Oomph.Ucx
