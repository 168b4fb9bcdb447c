import Oomph.Nccl.GroupEvent
import Oomph.Nccl.Places
import Oomph.Machine.Pool

namespace Oomph.Nccl

open Machine

def Action.isSmooth : Action → Bool
  | .callbackThrows => false
  | .fail _ => false
  | _ => true

/-- Callbacks let no exception escape, and an event that has fired stays complete until it is
recorded again. -/
def Smooth (_ : State) (action : Action) : Prop :=
  action.isSmooth = true

instance (s : State) (action : Action) : Decidable (Smooth s action) :=
  inferInstanceAs (Decidable (_ = true))

def CommunicatorImpl.queued (c : CommunicatorImpl) : Multiset Nat :=
  c.sendReqs.queue + c.recvReqs.queue

namespace State

def running (s : State) : List Nat := s.stack.filterMap Frame.running

def pending (s : State) : Multiset Nat :=
  total CommunicatorImpl.queued s.comms + s.sharedWaiting + (s.waiting : Multiset Nat)

def books (s : State) : Books Post Counter where
  attrs := s.posts
  waiting := s.pending
  running := s.running
  called := Event.calledOps s.history
  returned := Event.returnedOps s.history
  withdrawn := 0
  outstanding := s.scheduled

structure Answering (s : State) : Prop extends s.Grouped where
  cuda : ∀ event, s.cuda event ≠ .error

end State

variable {rank : RankType} {s t : State} {action : Action} {comm op : Nat} {side : Side}

open State

theorem State.Answering.isReady (answering : s.Answering) (known : op < s.posts.length) :
    s.isReady op ≠ none := by
  have answer (e : CudaEvent) : e.isReady s.cuda ≠ none := by
    unfold CudaEvent.isReady
    split
    · cases query : s.cuda e.event with
      | error => exact absurd query (answering.cuda e.event)
      | _ => simp
    · simp
  unfold State.isReady
  split
  · exact answer _
  · rename_i g req
    have inside := answering.posted op g known req
    rw [List.getElem?_eq_getElem inside]
    exact answer _

theorem State.Answering.step (answering : s.Answering) (smooth : action.isSmooth = true)
    (effect : Effect rank s action t) : t.Answering where
  toGrouped := answering.toGrouped.step effect
  cuda := by
    have set (event : Nat) (query : Query) (fine : query ≠ .error) (other : Nat) :
        Function.update s.cuda event query other ≠ .error := by
      by_cases same : other = event
      · rw [same, Function.update_self]
        exact fine
      · rw [Function.update_of_ne same]
        exact answering.cuda other
    cases effect with
    | endGroup comm c g stream =>
      intro other
      cases found : s.groupEvents[g]? with
      | none => simpa [resetGroup, found] using answering.cuda other
      | some e => simpa [resetGroup, found] using set e.event .notReady nofun other
    | postSingle => exact set _ _ nofun
    | fire event => exact set event _ nofun
    | fail => cases smooth
    | _ => exact answering.cuda

theorem filter_ready_add {isReady : Nat → Option Bool} {queue : List Nat}
    (answers : ∀ op ∈ queue, isReady op ≠ none) :
    (queue.filter (isReady · = some false) + queue.filter (isReady · = some true) : Multiset Nat) =
      queue := by
  induction queue with
  | nil => rfl
  | cons head rest ih =>
    have others := ih fun op member => answers op (List.mem_cons_of_mem _ member)
    cases answer : isReady head with
    | none => exact absurd answer (answers head List.mem_cons_self)
    | some ready => cases ready <;> simp [answer, ← others, ← Multiset.cons_coe]

theorem queued_setReqs {c : CommunicatorImpl} {reqs : RequestQueue} :
    (c.setReqs side reqs).queued + (c.reqs side).queue = c.queued + (reqs.queue : Multiset Nat) := by
  cases side with
  | sends =>
    simp only [CommunicatorImpl.queued, CommunicatorImpl.setReqs, CommunicatorImpl.reqs]
    abel
  | recvs =>
    simp only [CommunicatorImpl.queued, CommunicatorImpl.setReqs, CommunicatorImpl.reqs]
    abel

theorem total_setReqs {c : CommunicatorImpl} (side : Side) (reqs : RequestQueue)
    (found : s.comms[comm]? = some c) :
    total CommunicatorImpl.queued (s.comms.modify comm (·.setReqs side reqs)) +
        ((c.reqs side).queue : Multiset Nat) =
      total CommunicatorImpl.queued s.comms + (reqs.queue : Multiset Nat) := by
  obtain ⟨others, whole, moved⟩ :=
    total_modify CommunicatorImpl.queued found (·.setReqs side reqs)
  rw [whole, moved, add_right_comm, queued_setReqs, add_right_comm]

theorem books_moved (posts : t.posts = s.posts) (pending : t.pending = s.pending)
    (running : t.running = s.running) (history : t.history = s.history)
    (scheduled : t.scheduled = s.scheduled) : t.books = s.books := by
  simp only [State.books, posts, pending, running, history, scheduled]

theorem books_eq (posts : t.posts = s.posts)
    (queued : total CommunicatorImpl.queued t.comms = total CommunicatorImpl.queued s.comms)
    (shared : t.sharedWaiting = s.sharedWaiting) (waiting : t.waiting = s.waiting)
    (running : t.running = s.running) (history : t.history = s.history)
    (scheduled : t.scheduled = s.scheduled) : t.books = s.books := by
  refine books_moved posts ?_ running history scheduled
  rw [State.pending, queued, shared, waiting, State.pending]

private theorem entry_none (same : t.books = s.books) :
    Relation.ReflGen (Books.Entry Post.counter) s.books t.books :=
  same ▸ .refl

private theorem entry_stack (top pushed : List Frame) {rest : List Frame} (before : s.stack = top ++ rest)
    (empty : ∀ frame ∈ top ++ pushed, frame.taken = []) :
    Relation.ReflGen (Books.Entry Post.counter) s.books (s.setStack (pushed ++ rest)).books := by
  have idle (frames : List Frame) (none : ∀ frame ∈ frames, frame.taken = []) :
      frames.flatMap Frame.waiting = [] ∧ frames.filterMap Frame.running = [] := by
    refine ⟨List.flatMap_eq_nil_iff.mpr fun frame member => ?_,
      List.filterMap_eq_nil_iff.mpr fun frame member => Frame.running_of_taken (none frame member)⟩
    exact List.sublist_nil.mp (none frame member ▸ frame.waiting_sublist)
  obtain ⟨first, second⟩ := idle top fun frame member => empty frame (List.mem_append_left _ member)
  obtain ⟨third, fourth⟩ :=
    idle pushed fun frame member => empty frame (List.mem_append_right _ member)
  refine entry_none (books_eq rfl rfl rfl ?_ ?_ rfl rfl)
  · simp [State.waiting, before, first, third]
  · simp [State.running, before, second, fourth]

theorem total_enqueue {c : CommunicatorImpl} (kind : Kind) (e : Nat)
    (found : s.comms[comm]? = some c) :
    total CommunicatorImpl.queued (s.comms.modify comm (·.enqueue kind e)) =
      (if kind = .sharedRecv then 0 else {e}) + total CommunicatorImpl.queued s.comms := by
  obtain ⟨others, whole, moved⟩ :=
    total_modify CommunicatorImpl.queued found (·.enqueue kind e)
  rw [whole, moved, ← add_assoc]
  congr 1
  cases kind <;>
    simp only [CommunicatorImpl.queued, CommunicatorImpl.enqueue, RequestQueue.enqueue,
      ← Multiset.coe_add, Multiset.coe_singleton, reduceCtorEq, if_true, if_false, zero_add] <;>
    abel

private theorem entry_create (before : State) {c : CommunicatorImpl} (kind : Kind)
    (peer : RankType) (tag : TagType) (req : NcclRequest) (found : before.comms[comm]? = some c)
    (same : before.books = s.books) :
    Books.Entry Post.counter s.books (before.create comm kind peer tag req).books := by
  rw [← same]
  refine .issue ⟨comm, kind, peer, tag, false⟩ rfl ?_ rfl rfl rfl rfl ?_
  · have queued := total_enqueue kind before.posts.length found
    simp only [State.books, State.pending, create_comms, queued, State.waiting, create_stack]
    cases kind with
    | sharedRecv =>
      simp only [State.sharedWaiting, create_sharedQueue, create_localQueue, if_true, zero_add,
        ← Multiset.coe_add, Multiset.coe_singleton, ← Multiset.singleton_add]
      abel
    | send =>
      simp only [State.sharedWaiting, create_sharedQueue, create_localQueue, reduceCtorEq,
        if_false, ← Multiset.singleton_add]
      abel
    | recv =>
      simp only [State.sharedWaiting, create_sharedQueue, create_localQueue, reduceCtorEq,
        if_false, ← Multiset.singleton_add]
      abel
  · rfl

theorem State.Settled.counted {request : Nat × Kind} (settled : s.Settled)
    (known : requestOf s.posts op = some request) : (s.heap op).cb = op ∧
      Books.keyOf Post.counter s.posts op = some (s.heap op).scheduled := by
  obtain ⟨post, found, made, _, _⟩ := requestOf_eq_some.mp known
  have identity := settled.request op post found
  refine ⟨congrArg RequestStateBase.cb identity, ?_⟩
  have counter := congrArg RequestStateBase.scheduled identity
  simp only [Books.keyOf, found, Option.bind_some, Post.counter, made, Bool.false_eq_true, if_false]
  exact congrArg some counter.symm

private theorem entry_call {e : Nat} {waiting : List Nat} {rest : List Frame}
    (stack : s.stack = .ready comm side (e :: waiting) :: rest) (cb : (s.heap e).cb = e) :
    Books.Entry Post.counter s.books (((s.releaseSelfRef e).callCb e).setStack
      (.callback comm side e waiting :: rest)).books := by
  refine .start e rfl ?_ ?_ ?_ rfl rfl rfl
  · simp only [State.books, State.pending, State.waiting, stack, setStack_stack, List.flatMap_cons,
      Frame.waiting_ready, Frame.waiting_callback, List.cons_append, ← Multiset.cons_coe,
      Multiset.add_cons]
    rfl
  · simp [State.books, State.running, stack, Frame.running, List.filterMap_cons]
  · simp [State.books, cb]

private theorem entry_found {e : Nat} {skipped left : List Nat} {rest : List Frame}
    (stack : s.stack = .context :: rest) (whole : s.sharedQueue = skipped ++ e :: left)
    (cb : (s.heap e).cb = e) :
    Books.Entry Post.counter s.books
      ((((s.setShared (left ++ (s.localQueue ++ skipped)) [] false).releaseSelfRef e).callCb
        e).setStack (.shared e :: rest)).books := by
  refine .start e rfl ?_ ?_ ?_ rfl rfl rfl
  · simp only [State.books, State.pending, State.waiting, stack, State.sharedWaiting, whole, setStack_sharedQueue,
      callCb_sharedQueue, releaseSelfRef_sharedQueue, setShared_sharedQueue, setStack_localQueue,
      callCb_localQueue, releaseSelfRef_localQueue, setShared_localQueue, setStack_comms,
      callCb_comms, releaseSelfRef_comms, setShared_comms, setStack_stack, List.flatMap_cons,
      Frame.waiting_context, Frame.waiting_shared, List.nil_append, ← Multiset.coe_add,
      ← Multiset.cons_coe, Multiset.coe_nil, ← Multiset.singleton_add]
    abel
  · simp [State.books, State.running, stack, Frame.running, List.filterMap_cons]
  · simp [State.books, cb]

private theorem entry_return {frame : Frame} {rest : List Frame} {request : Nat × Kind}
    (left : List Frame) (settled : s.Settled) (known : requestOf s.posts op = some request)
    (stack : s.stack = frame :: rest) (runs : frame.running = some op)
    (waits : left.flatMap Frame.waiting = frame.waiting)
    (idle : left.filterMap Frame.running = []) :
    Books.Entry Post.counter s.books
      (((s.finishCb op).setStack (left ++ rest)).sweep op).books := by
  obtain ⟨cb, key⟩ := settled.counted known
  refine .finish op rfl ?_ ?_ rfl ?_ rfl ?_
  · simp [State.books, State.pending, State.waiting, stack, waits, State.sharedWaiting]
  · simp [State.books, State.running, stack, runs, idle]
  · simp [State.books, cb]
  · simp only [State.books, key]
    rfl

private theorem pending_scan {c : CommunicatorImpl} {left ready : List Nat} {rest : List Frame}
    (stack : s.stack = .queue comm side :: rest) (found : s.comms[comm]? = some c)
    (split : (left + ready : Multiset Nat) = (c.reqs side).queue) :
    ((s.modifyComm comm (·.setReqs side { queue := left, inProgress := true })).setStack
      (.ready comm side ready :: rest)).pending = s.pending := by
  have queued := total_setReqs side { queue := left, inProgress := true } found
  have moved : total CommunicatorImpl.queued
      (s.comms.modify comm (·.setReqs side { queue := left, inProgress := true })) +
        (ready : Multiset Nat) = total CommunicatorImpl.queued s.comms := by
    rw [← split] at queued
    refine add_right_cancel (b := (left : Multiset Nat)) ?_
    rw [← queued]
    abel
  simp only [State.pending, State.waiting, stack, setStack_stack, setStack_comms, modifyComm_comms,
    List.flatMap_cons, Frame.waiting_queue, Frame.waiting_ready, List.nil_append, ← moved,
    ← Multiset.coe_add]
  simp only [State.sharedWaiting, setStack_sharedQueue, setStack_localQueue, modifyComm_sharedQueue,
    modifyComm_localQueue]
  abel

/-- Every step makes at most one entry in the books. -/
theorem effect_entry (placed : s.Placed) (answering : s.Answering)
    (smooth : action.isSmooth = true) (effect : Effect rank s action t) :
    Relation.ReflGen (Books.Entry Post.counter) s.books t.books := by
  have answers {e : Nat} (queued : s.Queued e) : s.isReady e ≠ none :=
    answering.isReady (placed.queued e queued)
  have group (info : Option GroupInfo) (comm : Nat) :
      total CommunicatorImpl.queued (s.comms.modify comm (·.setGroupInfo info)) =
        total CommunicatorImpl.queued s.comms := total_modify_same _ _ _ fun _ => by rfl
  cases effect with
  | getCommunicator =>
    refine entry_none (books_eq rfl ?_ rfl rfl rfl rfl rfl)
    simp [CommunicatorImpl.queued, CommunicatorImpl.empty, RequestQueue.empty]
  | startGroup comm => exact entry_none (books_eq rfl (group _ comm) rfl rfl rfl rfl rfl)
  | endEmpty comm => exact entry_none (books_eq rfl (group _ comm) rfl rfl rfl rfl rfl)
  | endGroup comm => exact entry_none (books_eq rfl (group _ comm) rfl rfl rfl rfl rfl)
  | postGroup comm kind peer tag stream c info user found =>
    have here : ((s.ncclPost s.posts.length).modifyComm comm
        (·.setGroupInfo (some { info with lastStream := some stream }))).comms[comm]? =
        some (c.setGroupInfo (some { info with lastStream := some stream })) := by
      simp [found]
    exact .single (entry_create _ kind peer tag _ here
      (books_eq rfl (group _ comm) rfl rfl rfl rfl rfl))
  | postSingle comm kind peer tag stream c user found =>
    exact .single (entry_create _ kind peer tag _ found rfl)
  | progress comm c =>
    exact entry_stack [] [_] rfl (by simp)
  | contextProgress => exact entry_stack [] [_] rfl (by simp)
  | skip comm side c rest stack => exact entry_stack [_] [_] stack (by simp)
  | scan comm side c rest stack found idle =>
    refine entry_none (books_moved rfl ?_ ?_ rfl rfl)
    · exact pending_scan stack found (filter_ready_add fun op member =>
        answers (.inl ⟨comm, c, side, found, member⟩))
    · simp [State.running, stack, Frame.running, List.filterMap_cons]
  | scanFailed comm side c rest i req scanned stack found idle here failed =>
    exact absurd failed (answers (.inl ⟨comm, c, side, found, List.mem_of_getElem? here⟩))
  | call comm side e waiting rest stack =>
    have known := placed.typed.taken _ (by rw [stack]; exact List.mem_cons_self) _ rfl e
      List.mem_cons_self
    exact .single (entry_call stack (placed.toSettled.counted known).1)
  | done comm side c rest stack found =>
    have queued := total_setReqs side { c.reqs side with inProgress := false } found
    refine entry_none (books_eq rfl (add_right_cancel queued) rfl ?_ ?_ rfl rfl)
    · simp [State.waiting, stack]
    · cases side <;> simp [State.running, stack, Frame.running, Side.next, List.filterMap_cons]
  | sharedBusy rest stack => exact entry_stack [_] [] stack (by simp)
  | sharedNone rest stack =>
    refine entry_none (books_eq rfl rfl ?_ ?_ ?_ rfl rfl)
    · simp [State.sharedWaiting, ← Multiset.coe_add, add_comm]
    · simp [State.waiting, stack]
    · simp [State.running, stack, Frame.running, List.filterMap_cons]
  | sharedFound rest e skipped left stack _ whole =>
    obtain ⟨_, known⟩ := placed.typed.shared e (.inl (by simp [State.sharedWaiting, whole]))
    exact .single (entry_found stack whole (placed.toSettled.counted known).1)
  | sharedFailed rest e skipped left stack _ whole failed =>
    exact absurd failed (answers (.inr (.inl (by simp [whole]))))
  | returns comm side e waiting rest stack =>
    have known := placed.typed.taken _ (by rw [stack]; exact List.mem_cons_self) _ rfl e
      List.mem_cons_self
    exact .single (entry_return [.ready comm side waiting] placed.toSettled known stack
      rfl (by simp) (by simp [Frame.running]))
  | sharedReturns e rest stack =>
    obtain ⟨_, known⟩ := placed.typed.shared e (.inr (by rw [stack]; exact List.mem_cons_self))
    exact .single (entry_return [] placed.toSettled known stack rfl rfl rfl)
  | callbackThrows => cases smooth
  | _ => exact entry_none (books_eq rfl rfl rfl rfl rfl rfl rfl)

structure State.Accounted (s : State) : Prop extends s.Answering where
  placed : s.Placed
  consistent : Books.Consistent Post.counter s.books

theorem State.Accounted.initial : Accounted initial where
  toGrouped := .initial
  cuda _ := nofun
  placed := .initial
  consistent := by
    refine ⟨rfl, rfl, fun counter => ?_⟩
    simp [State.books, State.pending, State.running, State.waiting, State.sharedWaiting,
      State.initial]

theorem State.Accounted.step (accounted : s.Accounted) (smooth : action.isSmooth = true)
    (effect : Effect rank s action t) : t.Accounted where
  toAnswering := accounted.toAnswering.step smooth effect
  placed := accounted.placed.step effect
  consistent := accounted.consistent.entries
    (effect_entry accounted.placed accounted.toAnswering smooth effect)

end Oomph.Nccl
