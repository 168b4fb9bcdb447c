import Oomph.Nccl.Effects
import Oomph.Machine.Pool
import Oomph.Machine.Run

namespace Oomph.Nccl

open Machine

def Frame.taken : Frame → List Nat
  | .ready _ _ waiting => waiting
  | .callback _ _ op waiting => op :: waiting
  | .shared op => [op]
  | _ => []

namespace Frame

variable {comm op : Nat} {side : Side} {waiting : List Nat}

@[simp] theorem taken_queue : (queue comm side).taken = [] := rfl

@[simp] theorem taken_ready : (ready comm side waiting).taken = waiting := rfl

@[simp] theorem taken_callback : (callback comm side op waiting).taken = op :: waiting := rfl

@[simp] theorem taken_context : context.taken = [] := rfl

@[simp] theorem taken_shared : (shared op).taken = [op] := rfl

end Frame

@[simp] theorem Side.taken_next (comm : Nat) (side : Side) : (side.next comm).taken = [] := by
  cases side <;> rfl

namespace CommunicatorImpl

variable {c : CommunicatorImpl} {side other : Side} {reqs : RequestQueue}

@[simp] theorem reqs_setGroupInfo (groupInfo : Option GroupInfo) :
    (c.setGroupInfo groupInfo).reqs side = c.reqs side := by
  cases side <;> rfl

@[simp] theorem groupInfo_setReqs : (c.setReqs side reqs).groupInfo = c.groupInfo := by
  cases side <;> rfl

@[simp] theorem groupInfo_enqueue (kind : Kind) (e : Nat) :
    (c.enqueue kind e).groupInfo = c.groupInfo := by
  cases kind <;> rfl

theorem reqs_setReqs : (c.setReqs side reqs).reqs other = if other = side then reqs else
    c.reqs other := by
  cases side <;> cases other <;> rfl

theorem mem_enqueue {kind : Kind} {e op : Nat} (member : op ∈ ((c.enqueue kind e).reqs side).queue) :
    op ∈ (c.reqs side).queue ∨ op = e := by
  cases kind <;> cases side <;> simp_all [enqueue, reqs, RequestQueue.enqueue]

end CommunicatorImpl

namespace State

def Queued (s : State) (op : Nat) : Prop :=
  (∃ (comm : Nat) (c : CommunicatorImpl) (side : Side), s.comms[comm]? = some c ∧
    op ∈ (c.reqs side).queue) ∨ op ∈ s.sharedQueue ∨ op ∈ s.localQueue

def Reported (s : State) (op : Nat) : Prop :=
  op ∈ s.stack.flatMap Frame.taken ∨ op ∈ Event.calledOps s.history ∨ (s.heap op).ready = true

end State

variable {rank : RankType} {s t : State} {action : Action} {comm op : Nat}
  {change : CommunicatorImpl → CommunicatorImpl}

private theorem queued_of_modify (added : Nat → Prop) (queued : t.Queued op)
    (comms : t.comms = s.comms.modify comm change)
    (shared : op ∈ t.sharedQueue ∨ op ∈ t.localQueue →
      op ∈ s.sharedQueue ∨ op ∈ s.localQueue ∨ added op)
    (fewer : ∀ c side, s.comms[comm]? = some c → op ∈ ((change c).reqs side).queue →
      op ∈ (c.reqs side).queue ∨ added op) : s.Queued op ∨ added op := by
  rcases queued with ⟨index, c, side, found, member⟩ | rest
  · rw [comms] at found
    obtain ⟨before, here, ⟨rfl, _⟩ | ⟨rfl, rfl⟩⟩ := getElem?_modify_cases found
    · exact .inl (.inl ⟨index, c, side, here, member⟩)
    · rcases fewer before side here member with old | new
      · exact .inl (.inl ⟨index, before, side, here, old⟩)
      · exact .inr new
  · rcases shared rest with old | old | new
    · exact .inl (.inr (.inl old))
    · exact .inl (.inr (.inr old))
    · exact .inr new

private theorem queued_of_modify_same (queued : t.Queued op)
    (comms : t.comms = s.comms.modify comm change)
    (shared : t.sharedQueue = s.sharedQueue) (thread : t.localQueue = s.localQueue)
    (fewer : ∀ c side, s.comms[comm]? = some c → op ∈ ((change c).reqs side).queue →
      op ∈ (c.reqs side).queue) : s.Queued op := by
  have moved : s.Queued op ∨ False := by
    refine queued_of_modify (fun _ => False) queued comms ?_ ?_
    · rw [shared, thread]
      exact fun member => member.imp_right .inl
    · exact fun c side found member => .inl (fewer c side found member)
  exact moved.resolve_right id

private theorem queued_of_shared (queued : t.Queued op) (comms : t.comms = s.comms)
    (shared : op ∈ t.sharedQueue ∨ op ∈ t.localQueue → op ∈ s.sharedQueue ∨ op ∈ s.localQueue) :
    s.Queued op := by
  rcases queued with own | rest
  · rw [comms] at own
    exact .inl own
  · exact .inr (shared rest)

private theorem queued_of_same (queued : t.Queued op) (comms : t.comms = s.comms)
    (shared : t.sharedQueue = s.sharedQueue) (thread : t.localQueue = s.localQueue) :
    s.Queued op :=
  queued_of_shared queued comms (by rw [shared, thread]; exact id)

private theorem queued_of_setGroupInfo {groupInfo : Option GroupInfo} (queued : t.Queued op)
    (comms : t.comms = s.comms.modify comm (·.setGroupInfo groupInfo))
    (shared : t.sharedQueue = s.sharedQueue) (thread : t.localQueue = s.localQueue) :
    s.Queued op :=
  queued_of_modify_same queued comms shared thread fun _ _ _ member => by simpa using member

private theorem queued_of_setReqs {side : Side} {reqs : RequestQueue} (queued : t.Queued op)
    (comms : t.comms = s.comms.modify comm (·.setReqs side reqs))
    (shared : t.sharedQueue = s.sharedQueue) (thread : t.localQueue = s.localQueue)
    (fewer : ∀ c, s.comms[comm]? = some c → op ∈ reqs.queue → op ∈ (c.reqs side).queue) :
    s.Queued op := by
  refine queued_of_modify_same queued comms shared thread fun c other found member => ?_
  rw [CommunicatorImpl.reqs_setReqs] at member
  split at member
  · rename_i same
    rw [same]
    exact fewer c found member
  · exact member

private theorem queued_of_create {kind : Kind} {peer : RankType} {tag : TagType}
    {req : NcclRequest} (queued : (s.create comm kind peer tag req).Queued op) :
    s.Queued op ∨ op = s.posts.length := by
  refine queued_of_modify (· = s.posts.length) queued rfl ?_
    fun c side _ member => CommunicatorImpl.mem_enqueue member
  cases kind <;> simp [State.create] <;> tauto

theorem queued_of_effect (effect : Effect rank s action t) (queued : t.Queued op) :
    s.Queued op ∨ op = s.posts.length ∧ t.posts.length = s.posts.length + 1 := by
  cases effect with
  | getCommunicator =>
    refine .inl ?_
    rcases queued with ⟨index, c, side, found, member⟩ | rest
    · rcases concat_cases found with ⟨_, found⟩ | ⟨_, rfl⟩
      · exact .inl ⟨index, c, side, found, member⟩
      · cases side <;> cases member
    · exact .inr rest
  | startGroup => exact .inl (queued_of_setGroupInfo queued rfl rfl rfl)
  | endEmpty => exact .inl (queued_of_setGroupInfo queued rfl rfl rfl)
  | endGroup => exact .inl (queued_of_setGroupInfo queued rfl rfl rfl)
  | postGroup comm kind peer tag stream c info =>
    rcases queued_of_create queued with old | new
    · exact .inl (queued_of_setGroupInfo old rfl rfl rfl)
    · exact .inr ⟨new, by simp [State.postGroup]⟩
  | postSingle comm kind peer tag stream c =>
    rcases queued_of_create queued with old | new
    · exact .inl (queued_of_same old rfl rfl rfl)
    · exact .inr ⟨new, by simp [State.postSingle]⟩
  | scan comm side c rest _ found =>
    refine .inl (queued_of_setReqs queued rfl rfl rfl fun before here member => ?_)
    rw [found] at here
    cases here
    exact List.mem_of_mem_filter member
  | scanFailed comm side c rest i req scanned _ found _ _ _ upto =>
    refine .inl (queued_of_setReqs queued rfl rfl rfl fun before here member => ?_)
    rw [found] at here
    cases here
    exact upto.members op member
  | done comm side c rest _ found =>
    refine .inl (queued_of_setReqs queued rfl rfl rfl fun before here member => ?_)
    rw [found] at here
    cases here
    exact member
  | sharedNone rest =>
    refine .inl (queued_of_shared queued rfl fun member => ?_)
    simpa [or_comm] using member
  | sharedFound rest e skipped left _ _ whole =>
    refine .inl (queued_of_shared queued rfl fun member => ?_)
    rw [whole]
    simp only [State.setStack_sharedQueue, State.setStack_localQueue, State.callCb_sharedQueue,
      State.callCb_localQueue, State.releaseSelfRef_sharedQueue, State.releaseSelfRef_localQueue,
      State.setShared_sharedQueue, State.setShared_localQueue] at member
    simp at member ⊢
    tauto
  | sharedFailed rest e skipped left _ _ whole =>
    refine .inl (queued_of_shared queued rfl fun member => ?_)
    rw [whole]
    simp at member ⊢
    tauto
  | _ => exact .inl (queued_of_same queued rfl rfl rfl)

private theorem reported_of_same (reported : t.Reported op)
    (stack : op ∈ t.stack.flatMap Frame.taken → op ∈ s.stack.flatMap Frame.taken)
    (history : Event.calledOps t.history = Event.calledOps s.history)
    (ready : (t.heap op).ready = true → s.Reported op) : s.Reported op := by
  rcases reported with taken | called | marked
  · exact .inl (stack taken)
  · rw [history] at called
    exact .inr (.inl called)
  · exact ready marked

private theorem reported_of_call {e : Nat}
    (reported : ((s.releaseSelfRef e).callCb e).Reported op) :
    op = (s.heap e).cb ∨ s.Reported op := by
  have heap : ((s.releaseSelfRef e).heap op).toRequestStateBase = (s.heap op).toRequestStateBase := by
    by_cases same : op = e <;> simp [State.releaseSelfRef, same]
  rcases reported with taken | called | marked
  · exact .inr (.inl taken)
  · rcases Multiset.mem_cons.mp called with new | old
    · exact .inl (by simpa [State.releaseSelfRef] using new)
    · exact .inr (.inr (.inl old))
  · refine .inr (.inr (.inr ?_))
    rw [← heap]
    exact marked

private theorem ready_finishCb {e : Nat} (marked : ((s.finishCb e).heap op).ready = true) :
    op = e ∨ (s.heap op).ready = true := by
  by_cases same : op = e
  · exact .inl same
  · exact .inr (by simpa [State.finishCb, same] using marked)

private theorem reported_of_create {kind : Kind} {peer : RankType} {tag : TagType}
    {req : NcclRequest} (reported : (s.create comm kind peer tag req).Reported op) :
    s.Reported op := by
  refine reported_of_same reported id rfl fun marked => ?_
  by_cases new : op = s.posts.length
  · simp [State.create, new, RequestStateBase.create] at marked
  · exact .inr (.inr (by simpa [State.create, new] using marked))

/-- What is called back or marked ready was found ready by a scan of its queue. -/
theorem reported_of_effect (effect : Effect rank s action t)
    (named : ∀ op, s.Reported op ∨ s.Queued op → (s.heap op).cb = op)
    (reported : t.Reported op) : s.Reported op ∨ s.Queued op ∧ s.isReady op = some true := by
  cases effect with
  | postGroup => exact .inl (reported_of_create reported)
  | postSingle => exact .inl (reported_of_create reported)
  | drop other =>
    refine .inl (reported_of_same reported id rfl fun marked => .inr (.inr ?_))
    by_cases same : op = other
    · simpa [State.dropHandle, same] using marked
    · simpa [State.dropHandle, same] using marked
  | skip comm side c rest stack =>
    refine .inl (reported_of_same reported ?_ rfl fun marked => .inr (.inr marked))
    simp [stack]
  | scan comm side c rest stack found =>
    rcases reported with taken | called | marked
    · simp only [State.setStack_stack, List.flatMap_cons, List.mem_append, Frame.taken_ready,
        List.mem_filter, decide_eq_true_eq] at taken
      rcases taken with ⟨member, ready⟩ | old
      · exact .inr ⟨.inl ⟨comm, c, side, found, member⟩, ready⟩
      · exact .inl (.inl (by simp [stack, old]))
    · exact .inl (.inr (.inl called))
    · exact .inl (.inr (.inr marked))
  | scanFailed comm side c rest i req scanned stack =>
    refine .inl (reported_of_same reported ?_ rfl fun marked => .inr (.inr marked))
    simp [stack]
  | call comm side e waiting rest stack =>
    have mine : s.Reported e := .inl (by simp [stack])
    have old : op = (s.heap e).cb ∨ s.Reported op := by
      refine reported_of_call (reported_of_same reported ?_ rfl fun marked => .inr (.inr marked))
      simp [stack]
    rw [named e (.inl mine)] at old
    rcases old with rfl | old
    · exact .inl mine
    · exact .inl old
  | done comm side c rest stack =>
    refine .inl (reported_of_same reported ?_ rfl fun marked => .inr (.inr marked))
    simp [stack]
  | sharedBusy rest stack =>
    refine .inl (reported_of_same reported ?_ rfl fun marked => .inr (.inr marked))
    simp [stack]
  | sharedNone rest stack =>
    refine .inl (reported_of_same reported ?_ rfl fun marked => .inr (.inr marked))
    simp [stack]
  | sharedFound rest e skipped left stack _ whole ready =>
    have mine : s.Queued e := .inr (.inl (by simp [whole]))
    by_cases same : op = e
    · subst same
      exact .inr ⟨mine, ready⟩
    · have old : op = (s.heap e).cb ∨ s.Reported op := by
        refine reported_of_call (reported_of_same reported ?_ rfl fun marked => .inr (.inr marked))
        simp [stack, same]
      rw [named e (.inr mine)] at old
      exact .inl (old.resolve_left same)
  | sharedFailed rest e skipped left stack =>
    refine .inl (reported_of_same reported ?_ rfl fun marked => .inr (.inr marked))
    simp [stack]
  | returns comm side e waiting rest stack =>
    refine .inl (reported_of_same reported ?_ rfl fun marked => ?_)
    · simp only [stack, State.sweep_stack, State.setStack_stack, List.flatMap_cons, Frame.taken_callback, Frame.taken_ready]
      exact fun member => List.mem_cons_of_mem _ member
    · rcases ready_finishCb marked with rfl | old
      · exact .inl (by simp [stack])
      · exact .inr (.inr old)
  | sharedReturns e rest stack =>
    refine .inl (reported_of_same reported ?_ rfl fun marked => ?_)
    · simp only [stack, State.sweep_stack, State.setStack_stack, List.flatMap_cons, Frame.taken_shared]
      exact fun member => List.mem_cons_of_mem _ member
    · rcases ready_finishCb marked with rfl | old
      · exact .inl (by simp [stack])
      · exact .inr (.inr old)
  | callbackThrows frame e rest stack =>
    refine .inl (reported_of_same reported ?_ rfl fun marked => .inr (.inr marked))
    simp only [stack, State.throws_stack, State.sweep_stack, State.setStack_stack,
      List.flatMap_cons, List.mem_append]
    exact .inr
  | _ => exact .inl reported

inductive RequestStep (s t : State) : Prop
  | same : t.posts = s.posts → (∀ op, (t.heap op).identity = (s.heap op).identity ∧
      (t.heap op).req = (s.heap op).req) → RequestStep s t
  | made (post : Post) (req : NcclRequest) : t.posts = s.posts ++ [post] →
      post.inplace = false → t.heap = Function.update s.heap s.posts.length
        { RequestStateBase.create post.comm post.kind post.rank post.tag s.posts.length with
          req, selfPtr := true, held := true } → RequestStep s t

private theorem requests_of_update {e : Nat} {request : RequestState} (posts : t.posts = s.posts)
    (heap : t.heap = Function.update s.heap e request)
    (identity : request.identity = (s.heap e).identity) (req : request.req = (s.heap e).req) :
    RequestStep s t := by
  refine .same posts fun op => ?_
  rw [heap]
  exact ⟨attr_update (fun request : RequestState => request.identity) identity op,
    attr_update RequestState.req req op⟩

theorem requests_of_effect (effect : Effect rank s action t) : RequestStep s t := by
  cases effect with
  | postGroup comm kind peer tag stream c info => exact .made ⟨comm, kind, peer, tag, false⟩ _ rfl rfl rfl
  | postSingle comm kind peer tag stream c => exact .made ⟨comm, kind, peer, tag, false⟩ _ rfl rfl rfl
  | drop => exact requests_of_update rfl rfl rfl rfl
  | call => exact requests_of_update rfl rfl rfl rfl
  | sharedFound => exact requests_of_update rfl rfl rfl rfl
  | returns => exact requests_of_update rfl rfl rfl rfl
  | sharedReturns => exact requests_of_update rfl rfl rfl rfl
  | _ => exact .same rfl fun _ => ⟨rfl, rfl⟩

theorem RequestStep.req (requests : RequestStep s t) (known : op < s.posts.length) :
    (t.heap op).req = (s.heap op).req := by
  cases requests with
  | same _ heap => exact (heap op).2
  | made post req _ _ heap => rw [heap, Function.update_of_ne (Nat.ne_of_lt known)]

theorem RequestStep.posts_le (requests : RequestStep s t) : s.posts.length ≤ t.posts.length := by
  cases requests with
  | same posts => rw [posts]
  | made post req posts => simp [posts]

namespace State

/-- The requests that the library knows were posted, and what they stand for is what the user
has posted. -/
structure Settled (s : State) : Prop where
  queued : ∀ op, s.Queued op → op < s.posts.length
  reported : ∀ op, s.Reported op → op < s.posts.length
  request : ∀ op post, s.posts[op]? = some post →
    (s.heap op).identity = RequestStateBase.create post.comm post.kind post.rank post.tag op

theorem Settled.initial : Settled initial where
  queued op queued := by
    rcases queued with ⟨_, _, _, found, _⟩ | shared | shared
    · cases found
    · cases shared
    · cases shared
  reported op reported := by
    rcases reported with taken | called | marked
    · cases taken
    · cases called
    · cases marked
  request _ _ found := by cases found

theorem Settled.named (settled : s.Settled) (known : op < s.posts.length) :
    (s.heap op).cb = op := by
  have whole := settled.request op s.posts[op] (List.getElem?_eq_getElem known)
  exact congrArg RequestStateBase.cb whole

theorem Settled.reported_step (settled : s.Settled) (effect : Effect rank s action t)
    (reported : t.Reported op) :
    op < s.posts.length ∧ (s.Reported op ∨ s.isReady op = some true) := by
  have named : ∀ op, s.Reported op ∨ s.Queued op → (s.heap op).cb = op := fun op here =>
    settled.named (here.elim (settled.reported op) (settled.queued op))
  rcases reported_of_effect effect named reported with old | ⟨waits, ready⟩
  · exact ⟨settled.reported op old, .inl old⟩
  · exact ⟨settled.queued op waits, .inr ready⟩

theorem Settled.step (settled : s.Settled) (effect : Effect rank s action t) : t.Settled := by
  have requests := requests_of_effect effect
  have grows := requests.posts_le
  refine ⟨fun op queued => ?_, fun op reported => ?_, fun op post found => ?_⟩
  · rcases queued_of_effect effect queued with old | ⟨new, longer⟩
    · exact Nat.lt_of_lt_of_le (settled.queued op old) grows
    · omega
  · exact Nat.lt_of_lt_of_le (settled.reported_step effect reported).1 grows
  · cases requests with
    | same posts heap =>
      rw [posts] at found
      rw [(heap op).1]
      exact settled.request op post found
    | made new req posts _ heap =>
      rw [posts] at found
      rw [heap]
      rcases concat_cases found with ⟨known, old⟩ | ⟨rfl, rfl⟩
      · rw [Function.update_of_ne (Nat.ne_of_lt known)]
        exact settled.request op post old
      · rw [Function.update_self]
        rfl

end State

end Oomph.Nccl
