import Oomph.Libfabric.Custody
import Oomph.Machine.Run
import Oomph.Machine.Stacks

namespace Oomph.Libfabric

open Machine State

def Belongs (posts : List Post) (user : Option Nat) (op : Nat) : Prop :=
  PostedAs posts op fun post => post.inplace = false ∧ userOf post = user

def Made (posts : List Post) (op : Nat) : Prop :=
  PostedAs posts op fun post => post.inplace = false

def Via.isInject : Via → Bool
  | .inject _ => true
  | _ => false

def Frame.Fits (posts : List Post) : Frame → Prop
  | .callback op via =>
    PostedAs posts op fun post => post.inplace = via.isInject ∧ userOf post = via.user
  | .invoke op via => Belongs posts via.user op ∧ via.isInject = false
  | .park op _ => Made posts op
  | .dispatch _ _ entries => ∀ op ∈ entries, Made posts op
  | .call user (.post op) => PostedAs posts op fun post => post.inplace = false ∧ user = some post.comm
  | .call user (.cancel op) => Belongs posts user op
  | .call user (.scan op) => Belongs posts user op
  | _ => True

namespace State

structure Settled (s : State) : Prop where
  fabric : ∀ op, op ∈ s.tx ∨ op ∈ s.rx → Made s.posts op
  comms : ∀ comm c, s.comms[comm]? = some c → ∀ op ∈ c.waiting, Belongs s.posts (some comm) op
  context : ∀ op, op ∈ s.recvCbQueue ∨ op ∈ s.recvCbCancel → Belongs s.posts none op
  frames : ∀ stack ∈ s.threads, ∀ frame ∈ stack, frame.Fits s.posts
  recorded : ∀ op post, s.posts[op]? = some post → post.inplace = false →
    (s.heap op).identity = RequestStateBase.create post.comm post.kind post.rank post.tag op

end State

variable {config : Config} {s t : State} {thread : Nat} {stack moved rest : List Frame}
  {frame : Frame} {posts : List Post} {op : Nat} {user : Option Nat}

namespace State

@[simp] theorem incRecursion_posts (via : Via) : (s.incRecursion via).posts = s.posts := by
  cases via <;> rfl

@[simp] theorem decRecursion_posts (via : Via) : (s.decRecursion via).posts = s.posts := by
  cases via <;> rfl

@[simp] theorem give_posts (kind : Kind) : (s.give op kind).posts = s.posts := by
  cases kind <;> rfl

@[simp] theorem take_posts (side : Side) (ops : List Nat) : (s.take side ops).posts = s.posts := by
  cases side <;> rfl

@[simp] theorem pushCancel_posts : (s.pushCancel user op).posts = s.posts := by
  cases user <;> rfl

@[simp] theorem pushCb_posts (post : Post) (side : Side) :
    (s.pushCb post side op).posts = s.posts := by
  unfold pushCb
  split <;> rfl

@[simp] theorem setCbQueue_posts (comm : Nat) (stage : Drain) (queue : List Nat) :
    (s.setCbQueue comm stage queue).posts = s.posts := by
  cases stage <;> rfl

@[simp] theorem setCancelQueue_posts (queue : List Nat) :
    (s.setCancelQueue user queue).posts = s.posts := by
  cases user <;> rfl

end State

theorem mem_of_popUntil {queue left : List Nat} {found : Bool} {other : Nat}
    (scanned : popUntil op queue [] = (found, left)) (member : other ∈ left) : other ∈ queue := by
  have rest := popUntil_rest op queue []
  rw [scanned, Multiset.coe_nil, add_zero] at rest
  rw [← Multiset.mem_coe, rest]
  exact Multiset.mem_add.mpr (.inr member)

theorem userOf_of_ne {post : Post} (own : ¬ post.kind = .sharedRecv) :
    userOf post = some post.comm := by
  unfold userOf
  split
  · contradiction
  · rfl

theorem Belongs.made (belongs : Belongs posts user op) : Made posts op :=
  belongs.imp fun _ => And.left

theorem Frame.Fits.append (fits : frame.Fits posts) (more : List Post) :
    frame.Fits (posts ++ more) := by
  unfold Frame.Fits at fits ⊢
  split at fits
  · exact PostedAs.append fits more
  · exact ⟨PostedAs.append fits.1 more, fits.2⟩
  · exact PostedAs.append fits more
  · exact fun op member => PostedAs.append (fits op member) more
  · exact PostedAs.append fits more
  · exact PostedAs.append fits more
  · exact PostedAs.append fits more
  · trivial

namespace State.Settled

theorem initial (threads : Nat) : (State.initial threads).Settled where
  fabric op := by simp [State.initial]
  comms comm c found := by simp [State.initial] at found
  context op := by simp [State.initial]
  frames stack member frame inside := by
    rw [List.eq_of_mem_replicate member] at inside
    cases inside
  recorded op post found := by simp [State.initial] at found

theorem of_found (settled : s.Settled) (found : s.threads[thread]? = some stack) :
    ∀ frame ∈ stack, frame.Fits s.posts :=
  settled.frames stack (List.mem_of_getElem? found)

theorem setStack (settled : s.Settled) (fits : ∀ frame ∈ moved, frame.Fits s.posts) :
    (s.setStack thread moved).Settled where
  fabric := settled.fabric
  comms := settled.comms
  context := settled.context
  frames stack member := by
    rcases List.mem_or_eq_of_mem_set member with old | rfl
    · exact settled.frames stack old
    · exact fits
  recorded := settled.recorded

theorem log (settled : s.Settled) (event : Event) : (s.log event).Settled where
  fabric := settled.fabric
  comms := settled.comms
  context := settled.context
  frames := settled.frames
  recorded := settled.recorded

theorem fail (settled : s.Settled) (fault : Fault) : (s.fail fault).Settled where
  fabric := settled.fabric
  comms := settled.comms
  context := settled.context
  frames := settled.frames
  recorded := settled.recorded

theorem returnCancel (settled : s.Settled) (op : Nat) (result : Bool) :
    (s.returnCancel op result).Settled where
  fabric := settled.fabric
  comms := settled.comms
  context := settled.context
  frames := settled.frames
  recorded := settled.recorded

theorem fiCancel (settled : s.Settled) (op : Nat) : (s.fiCancel op).Settled where
  fabric := settled.fabric
  comms := settled.comms
  context := settled.context
  frames := settled.frames
  recorded := settled.recorded

theorem modifyComm (settled : s.Settled) (comm : Nat)
    {change : CommunicatorImpl → CommunicatorImpl}
    (keeps : ∀ c, s.comms[comm]? = some c → ∀ op ∈ (change c).waiting,
      op ∈ c.waiting ∨ Belongs s.posts (some comm) op) : (s.modifyComm comm change).Settled where
  fabric := settled.fabric
  comms other c found op member := by
    rw [modifyComm_comms, List.getElem?_modify] at found
    obtain ⟨before, lookup, rfl⟩ := Option.map_eq_some_iff.mp found
    by_cases same : comm = other
    · subst other
      simp only [if_true] at member
      rcases keeps before lookup op member with old | fresh
      · exact settled.comms comm before lookup op old
      · exact fresh
    · simp only [same, if_false] at member
      exact settled.comms other before lookup op member
  context := settled.context
  frames := settled.frames
  recorded := settled.recorded

private theorem modifyComm_same (settled : s.Settled) (comm : Nat)
    {change : CommunicatorImpl → CommunicatorImpl}
    (same : ∀ c, (change c).waiting = c.waiting) : (s.modifyComm comm change).Settled :=
  settled.modifyComm comm fun c _ op member => .inl (by rwa [same] at member)

theorem incRecursion (settled : s.Settled) (via : Via) : (s.incRecursion via).Settled := by
  cases via with
  | inject comm => exact settled.modifyComm_same comm fun _ => rfl
  | inplace comm => exact settled.modifyComm_same comm fun _ => rfl
  | context => exact ⟨settled.fabric, settled.comms, settled.context, settled.frames, settled.recorded⟩
  | queue user => exact settled

theorem decRecursion (settled : s.Settled) (via : Via) : (s.decRecursion via).Settled := by
  cases via with
  | inject comm => exact settled.modifyComm_same comm fun _ => rfl
  | inplace comm => exact settled.modifyComm_same comm fun _ => rfl
  | context => exact ⟨settled.fabric, settled.comms, settled.context, settled.frames, settled.recorded⟩
  | queue user => exact settled

private theorem identity_update {heap : Heap} {op : Nat} {request : RequestState}
    (same : request.identity = (heap op).identity) (other : Nat) :
    (Function.update heap op request other).identity = (heap other).identity :=
  attr_update (fun request : RequestState => request.identity) same other

theorem releaseSelfRef (settled : s.Settled) (op : Nat) : (s.releaseSelfRef op).Settled where
  fabric := settled.fabric
  comms := settled.comms
  context := settled.context
  frames := settled.frames
  recorded other post found made :=
    (identity_update (by rfl) other).trans (settled.recorded other post found made)

theorem finishCb (settled : s.Settled) (op : Nat) : (s.finishCb op).Settled where
  fabric := settled.fabric
  comms := settled.comms
  context := settled.context
  frames := settled.frames
  recorded other post found made :=
    (identity_update (by rfl) other).trans (settled.recorded other post found made)

theorem setCanceled (settled : s.Settled) (op : Nat) : (s.setCanceled op).Settled where
  fabric := settled.fabric
  comms := settled.comms
  context := settled.context
  frames := settled.frames
  recorded other post found made :=
    (identity_update (by rfl) other).trans (settled.recorded other post found made)

theorem give (settled : s.Settled) (made : Made s.posts op) (kind : Kind) :
    (s.give op kind).Settled := by
  unfold State.give
  cases Side.ofKind kind with
  | sends =>
    refine ⟨fun other member => ?_, settled.comms, settled.context, settled.frames, settled.recorded⟩
    simp only [List.mem_append, List.mem_singleton] at member
    rcases member with (sent | rfl) | received
    · exact settled.fabric other (.inl sent)
    · exact made
    · exact settled.fabric other (.inr received)
  | recvs =>
    refine ⟨fun other member => ?_, settled.comms, settled.context, settled.frames, settled.recorded⟩
    simp only [List.mem_append, List.mem_singleton] at member
    rcases member with sent | received | rfl
    · exact settled.fabric other (.inl sent)
    · exact settled.fabric other (.inr received)
    · exact made

theorem take (settled : s.Settled) (side : Side) (ops : List Nat) :
    (s.take side ops).Settled := by
  cases side with
  | sends =>
    refine ⟨fun other member => settled.fabric other ?_, settled.comms, settled.context,
      settled.frames, settled.recorded⟩
    exact member.imp_left fun sent => List.diff_subset _ _ sent
  | recvs =>
    refine ⟨fun other member => settled.fabric other ?_, settled.comms, settled.context,
      settled.frames, settled.recorded⟩
    exact member.imp_right fun received => List.diff_subset _ _ received

theorem takeCanceled (settled : s.Settled) (op : Nat) : (s.takeCanceled op).Settled where
  fabric other member := settled.fabric other (member.imp_right List.mem_of_mem_erase)
  comms := settled.comms
  context := settled.context
  frames := settled.frames
  recorded := settled.recorded

theorem push (settled : s.Settled) {comm : Nat} {change : CommunicatorImpl → CommunicatorImpl}
    (pushed : ∀ c, (change c).waiting = {op} + c.waiting) (belongs : Belongs s.posts (some comm) op) :
    (s.modifyComm comm change).Settled := by
  refine settled.modifyComm comm fun c _ other member => ?_
  rw [pushed, Multiset.singleton_add, Multiset.mem_cons] at member
  rcases member with rfl | old
  · exact .inr belongs
  · exact .inl old

private theorem mem_push {queue : List Nat} {other : Nat} (member : other ∈ queue ++ [op]) :
    other ∈ queue ∨ other = op := by
  simpa using member

theorem pushCancel (settled : s.Settled) (belongs : Belongs s.posts user op) :
    (s.pushCancel user op).Settled := by
  cases user with
  | none =>
    refine ⟨settled.fabric, settled.comms, fun other member => ?_, settled.frames, settled.recorded⟩
    rcases member with queued | canceled
    · exact settled.context other (.inl queued)
    · rcases mem_push canceled with old | rfl
      · exact settled.context other (.inr old)
      · exact belongs
  | some comm => exact settled.push (CommunicatorImpl.waiting_pushCancel op) belongs

theorem pushCb (settled : s.Settled) {post : Post} (side : Side)
    (belongs : Belongs s.posts (userOf post) op) : (s.pushCb post side op).Settled := by
  unfold State.pushCb
  split
  · rename_i shared
    refine ⟨settled.fabric, settled.comms, fun other member => ?_, settled.frames, settled.recorded⟩
    rcases member with queued | canceled
    · rcases mem_push queued with old | rfl
      · exact settled.context other (.inl old)
      · simpa [userOf, shared] using belongs
    · exact settled.context other (.inr canceled)
  · rename_i own
    refine settled.push (CommunicatorImpl.waiting_pushSend op) ?_
    rwa [userOf_of_ne own] at belongs
  · rename_i own
    refine settled.push (CommunicatorImpl.waiting_pushRecv op) ?_
    rwa [userOf_of_ne own] at belongs

theorem setCbQueue (settled : s.Settled) {comm : Nat} {stage : Drain} {queue : List Nat}
    (waits : s.cbQueue comm stage = op :: queue) : (s.setCbQueue comm stage queue).Settled := by
  cases stage with
  | shared =>
    refine ⟨settled.fabric, settled.comms, fun other member => settled.context other ?_,
      settled.frames, settled.recorded⟩
    have whole : s.recvCbQueue = op :: queue := waits
    rw [whole]
    exact member.imp_left (List.mem_cons_of_mem op)
  | sends =>
    refine settled.modifyComm comm fun c found other member => .inl ?_
    have whole : c.sendCbQueue = op :: queue := by simpa [cbQueue, found] using waits
    simp only [CommunicatorImpl.waiting, Multiset.mem_add, Multiset.mem_coe, whole,
      List.mem_cons] at member ⊢
    tauto
  | recvs =>
    refine settled.modifyComm comm fun c found other member => .inl ?_
    have whole : c.recvCbQueue = op :: queue := by simpa [cbQueue, found] using waits
    simp only [CommunicatorImpl.waiting, Multiset.mem_add, Multiset.mem_coe, whole,
      List.mem_cons] at member ⊢
    tauto

theorem setCancelQueue (settled : s.Settled) (user : Option Nat) (queue : List Nat)
    (sub : ∀ op ∈ queue, op ∈ s.cancelQueue user) : (s.setCancelQueue user queue).Settled := by
  cases user with
  | none =>
    refine ⟨settled.fabric, settled.comms, fun other member => settled.context other ?_,
      settled.frames, settled.recorded⟩
    exact member.imp_right (sub other)
  | some comm =>
    refine settled.modifyComm comm fun c found other member => .inl ?_
    have sub : ∀ op ∈ queue, op ∈ c.recvCbCancel := by simpa [cancelQueue, found] using sub
    simp only [CommunicatorImpl.waiting, Multiset.mem_add, Multiset.mem_coe] at member ⊢
    exact member.imp_right (sub other)

theorem addPost (settled : s.Settled) (post : Post) (inplace : post.inplace = true) :
    (s.addPost post).Settled where
  fabric op member := PostedAs.append (settled.fabric op member) _
  comms comm c found op member := PostedAs.append (settled.comms comm c found op member) _
  context op member := PostedAs.append (settled.context op member) _
  frames stack member frame inside := (settled.frames stack member frame inside).append _
  recorded op other found made := by
    rcases concat_cases found with ⟨_, old⟩ | ⟨_, rfl⟩
    · exact settled.recorded op other old made
    · simp [inplace] at made

theorem create (settled : s.Settled) (comm : Nat) (kind : Kind) (rank : RankType)
    (tag : TagType) : (s.create comm kind rank tag).Settled where
  fabric op member := PostedAs.append (settled.fabric op member) _
  comms other c found op member := PostedAs.append (settled.comms other c found op member) _
  context op member := PostedAs.append (settled.context op member) _
  frames stack member frame inside := (settled.frames stack member frame inside).append _
  recorded op post found made := by
    rcases concat_cases found with ⟨inside, old⟩ | ⟨rfl, rfl⟩
    · rw [create_heap, Function.update_of_ne (Nat.ne_of_lt inside)]
      exact settled.recorded op post old made
    · rw [create_heap, Function.update_self]
      rfl

theorem getCommunicator (settled : s.Settled) (thread : Nat) :
    (s.getCommunicator thread).Settled where
  fabric := settled.fabric
  comms comm c found op member := by
    rcases concat_cases found with ⟨_, old⟩ | ⟨_, rfl⟩
    · exact settled.comms comm c old op member
    · simp [CommunicatorImpl.waiting] at member
  context := settled.context
  frames := settled.frames
  recorded := settled.recorded

theorem tail (settled : s.Settled) (found : s.threads[thread]? = some (frame :: rest)) :
    ∀ frame ∈ rest, frame.Fits s.posts :=
  fun other member => settled.of_found found other (List.mem_cons_of_mem _ member)

theorem head (settled : s.Settled) (found : s.threads[thread]? = some (frame :: rest)) :
    frame.Fits s.posts :=
  settled.of_found found frame List.mem_cons_self

private theorem fits_cons (first : frame.Fits posts) (others : ∀ frame ∈ rest, frame.Fits posts) :
    ∀ other ∈ frame :: rest, other.Fits posts :=
  List.forall_mem_cons.mpr ⟨first, others⟩

theorem afterPoll_fits {side : Side} (count : Nat) (polls : frame.poll = some (user, side))
    (fits : frame.Fits posts) : ∀ other ∈ frame.afterPoll config count, other.Fits posts := by
  unfold Frame.poll at polls
  split at polls
  · rename_i side retry
    cases side with
    | sends => simp [Frame.afterPoll, Frame.Fits]
    | recvs =>
      simp only [Frame.afterPoll]
      split <;> simp [Frame.Fits]
  · simp [Frame.afterPoll, Frame.Fits]
  · simpa [Frame.afterPoll, Frame.Fits] using fits
  · cases polls

theorem belongs_cbQueue (settled : s.Settled) {comm : Nat} {queue : Drain}
    (member : op ∈ s.cbQueue comm queue) : Belongs s.posts (drainUser comm queue) op := by
  cases queue with
  | shared => exact settled.context op (.inl member)
  | sends =>
    cases found : s.comms[comm]? with
    | none => simp [cbQueue, found] at member
    | some c =>
      have inside : op ∈ c.sendCbQueue := by simpa [cbQueue, found] using member
      exact settled.comms comm c found op (by simp [CommunicatorImpl.waiting, inside])
  | recvs =>
    cases found : s.comms[comm]? with
    | none => simp [cbQueue, found] at member
    | some c =>
      have inside : op ∈ c.recvCbQueue := by simpa [cbQueue, found] using member
      exact settled.comms comm c found op (by simp [CommunicatorImpl.waiting, inside])

theorem inplaceVia_some {post : Post} {c : CommunicatorImpl} {via : Via}
    (path : s.inplaceVia config user post c = some via) :
    via.isInject = false ∧ userOf post = via.user ∧ (via.user = none ∨ via.user = user) := by
  unfold inplaceVia at path
  split at path
  · cases path
  · split at path
    · rename_i shared
      cases path
      exact ⟨rfl, by simp [userOf, shared, Via.user], .inl rfl⟩
    · rename_i own
      split at path
      · rename_i same
        cases path
        exact ⟨rfl, userOf_of_ne own, .inr same.symm⟩
      · cases path

theorem control {act : Act} (settled : s.Settled) (found : s.threads[thread]? = some stack)
    (control : Control config s thread act stack moved) : ∀ frame ∈ moved, frame.Fits s.posts := by
  have fits := settled.of_found found
  cases control with
  | inject => exact fits_cons trivial fits
  | progress => exact fits_cons trivial (fits_cons trivial fits)
  | contextProgress => exact fits_cons trivial (fits_cons trivial fits)
  | destroy => exact fits_cons trivial fits
  | again => exact fits_cons trivial fits
  | nothing frame user side rest polls =>
    exact List.forall_mem_append.mpr
      ⟨afterPoll_fits 0 polls (settled.head found), settled.tail found⟩
  | inplace user side op entries post c via rest posted owner alive path =>
    obtain ⟨made, others⟩ := List.forall_mem_cons.mp (settled.head found)
    obtain ⟨inject, owned, _⟩ := inplaceVia_some path
    have invoked : (Frame.invoke op via).Fits s.posts :=
      ⟨⟨post, posted, made.of_found posted, owned⟩, inject⟩
    exact fits_cons invoked (fits_cons others (settled.tail found))
  | queued user side op entries post c rest =>
    obtain ⟨made, others⟩ := List.forall_mem_cons.mp (settled.head found)
    exact fits_cons made (fits_cons others (settled.tail found))
  | dispatched => exact settled.tail found
  | left => exact settled.tail found
  | nextQueue => exact fits_cons trivial (settled.tail found)
  | cleared => exact settled.tail found

theorem effect {act : Act} (settled : s.Settled) (effect : Effect config s thread act t) :
    t.Settled := by
  cases effect with
  | refuse op => exact settled.returnCancel op false
  | fail act fault => exact settled.fail fault
  | control act stack moved found control => exact settled.setStack (settled.control found control)
  | getCommunicator => exact settled.getCommunicator thread
  | post act comm kind rank tag stack found =>
    have made := settled.create comm kind rank tag
    refine made.setStack (fits_cons ?_ (made.of_found found))
    exact PostedAs.last ⟨rfl, rfl⟩
  | runInject comm dst tag c rest found =>
    have made := settled.addPost { comm, kind := .send, rank := dst, tag, inplace := true } rfl
    have called := (made.incRecursion (.inject comm)).log (.called s.posts.length dst tag)
    refine called.setStack (fits_cons ?_ (fits_cons trivial (made.tail found)))
    exact PostedAs.last ⟨rfl, rfl⟩
  | queueInject comm dst tag c rest found =>
    have made := settled.create comm .send dst tag
    have queued := made.push (CommunicatorImpl.waiting_pushSend s.posts.length)
      (PostedAs.last ⟨rfl, rfl⟩ : Belongs (s.create comm .send dst tag).posts (some comm) _)
    exact queued.setStack (made.tail found)
  | give user op post rest found posted =>
    have made : Made s.posts op := (settled.head found).imp fun _ => And.left
    refine (settled.give made post.kind).setStack
      (List.forall_mem_append.mpr ⟨?_, ?_⟩)
    · cases post.kind <;> simp [afterPost, Frame.Fits]
    · rw [give_posts]
      exact settled.tail found
  | take frame user side ops rest found polls within =>
    have dispatched : (Frame.dispatch user side ops).Fits s.posts := by
      intro op member
      have posted := Multiset.mem_of_le within (Multiset.mem_coe.mpr member)
      refine settled.fabric op ?_
      cases side with
      | sends => exact .inl posted
      | recvs => exact .inr posted
    refine (settled.take side ops).setStack ?_
    rw [take_posts]
    exact fits_cons dispatched (List.forall_mem_append.mpr
      ⟨afterPoll_fits _ polls (settled.head found), settled.tail found⟩)
  | canceled frame user op post rest found polls received asked posted =>
    have made := (settled.fabric op (.inr received)).of_found posted
    have belongs : Belongs s.posts (userOf post) op := ⟨post, posted, made, rfl⟩
    refine ((settled.takeCanceled op).pushCancel belongs).setStack ?_
    rw [pushCancel_posts]
    exact List.forall_mem_append.mpr
      ⟨afterPoll_fits 0 polls (settled.head found), settled.tail found⟩
  | park op side post rest found posted alive =>
    have made := (settled.head found).of_found posted
    have pushed := settled.pushCb side (⟨post, posted, made, rfl⟩ : Belongs s.posts _ op)
    refine pushed.setStack ?_
    rw [pushCb_posts]
    exact settled.tail found
  | start op via rest found =>
    obtain ⟨belongs, inject⟩ := settled.head found
    have started := ((settled.incRecursion via).releaseSelfRef op).log
      (.called (s.heap op).cb (s.heap op).rank (s.heap op).tag)
    have running : (Frame.callback op via).Fits s.posts :=
      belongs.imp fun post owned => ⟨owned.1.trans inject.symm, owned.2⟩
    refine started.setStack ?_
    rw [log_posts, releaseSelfRef_posts, incRecursion_posts]
    exact fits_cons running (settled.tail found)
  | returnCallback op via rest found =>
    have others := settled.tail found
    unfold State.returnCallback
    split
    · refine ((settled.log _).decRecursion _).setStack ?_
      rw [decRecursion_posts]
      exact others
    · refine ((settled.finishCb op).decRecursion via).setStack ?_
      rw [decRecursion_posts]
      exact others
  | pop comm stage destroying op queue rest found waits =>
    have invoked : (Frame.invoke op (.queue (drainUser comm stage))).Fits s.posts :=
      ⟨settled.belongs_cbQueue (waits ▸ List.mem_cons_self), rfl⟩
    refine (settled.setCbQueue waits).setStack ?_
    rw [setCbQueue_posts]
    exact fits_cons invoked (fits_cons trivial (settled.tail found))
  | destroyed comm rest found =>
    refine setStack (settled.modifyComm_same comm fun _ => ?_) (settled.tail found)
    rfl
  | withdraw user op queue rest found scanned =>
    have withdrawn := ((settled.setCancelQueue user queue
      fun other member => mem_of_popUntil scanned member).releaseSelfRef op).setCanceled op
    refine (withdrawn.returnCancel op true).setStack ?_
    rw [returnCancel_posts, setCanceled_posts, releaseSelfRef_posts, setCancelQueue_posts]
    exact settled.tail found
  | rescan user op queue rest found scanned =>
    have belongs : Belongs s.posts user op := settled.head found
    have rescanned := settled.setCancelQueue user queue
      fun other member => mem_of_popUntil scanned member
    refine rescanned.setStack ?_
    rw [setCancelQueue_posts]
    exact fits_cons belongs (settled.tail found)
  | beginCancel op post stack found user posted made =>
    have belongs : Belongs s.posts (userOf post) op := ⟨post, posted, made, rfl⟩
    exact (settled.fiCancel op).setStack (fits_cons belongs (settled.of_found found))

theorem of_reaches {allowed : State → Action → Prop} {threads : Nat}
    (reached : Reaches (step config) allowed (State.initial threads) s) : s.Settled :=
  reached.invariant Settled (initial threads) fun _ _ _ settled _ taken =>
    settled.effect (step_effect taken)

end State.Settled

end Oomph.Libfabric
