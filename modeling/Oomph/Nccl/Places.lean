import Oomph.Nccl.Settled
import Mathlib.Tactic.Abel

namespace Oomph.Nccl

open Machine

/-! A request waits in the queue of its communicator and kind, is taken by a loop over the ready
ones, and is called back there.  This holds in every run: an exception in the middle of a scan
or of a loop may lose requests and may leave some twice in the queue, but that queue then stays
marked in progress, and no loop goes over it again.
-/

def Side.kind : Side → Kind
  | .sends => .send
  | .recvs => .recv

theorem Side.kind_injective {side other : Side} (same : side.kind = other.kind) : side = other := by
  cases side <;> cases other <;> first | rfl | cases same

namespace Frame

def loop : Frame → Option (Nat × Side)
  | .ready comm side _ => some (comm, side)
  | .callback comm side _ _ => some (comm, side)
  | _ => none

def waiting : Frame → List Nat
  | .ready _ _ waiting => waiting
  | .callback _ _ _ waiting => waiting
  | _ => []

@[simp] theorem loop_ready (comm : Nat) (side : Side) (waiting : List Nat) :
    (ready comm side waiting).loop = some (comm, side) := rfl

@[simp] theorem loop_callback (comm : Nat) (side : Side) (op : Nat) (waiting : List Nat) :
    (callback comm side op waiting).loop = some (comm, side) := rfl

@[simp] theorem loop_queue (comm : Nat) (side : Side) : (queue comm side).loop = none := rfl

@[simp] theorem loop_context : context.loop = none := rfl

@[simp] theorem loop_shared (op : Nat) : (shared op).loop = none := rfl

@[simp] theorem waiting_ready (comm : Nat) (side : Side) (waiting : List Nat) :
    (ready comm side waiting).waiting = waiting := rfl

@[simp] theorem waiting_callback (comm : Nat) (side : Side) (op : Nat) (waiting : List Nat) :
    (callback comm side op waiting).waiting = waiting := rfl

@[simp] theorem waiting_queue (comm : Nat) (side : Side) : (queue comm side).waiting = [] := rfl

@[simp] theorem waiting_context : context.waiting = [] := rfl

@[simp] theorem waiting_shared (op : Nat) : (shared op).waiting = [] := rfl

theorem taken_eq (frame : Frame) : frame.taken = frame.running.toList ++ frame.waiting := by
  cases frame <;> rfl

theorem waiting_sublist (frame : Frame) : frame.waiting.Sublist frame.taken := by
  rw [taken_eq]
  exact List.sublist_append_right _ _

theorem running_of_taken {frame : Frame} (empty : frame.taken = []) : frame.running = none := by
  cases frame <;> first | rfl | cases empty

end Frame

@[simp] theorem Side.waiting_next (comm : Nat) (side : Side) : (side.next comm).waiting = [] := by
  cases side <;> rfl

@[simp] theorem Side.loop_next (comm : Nat) (side : Side) : (side.next comm).loop = none := by
  cases side <;> rfl

theorem requestOf_append {posts : List Post} {op : Nat} {request : Nat × Kind}
    (known : requestOf posts op = some request) (more : List Post) :
    requestOf (posts ++ more) op = some request := by
  obtain ⟨post, found, made⟩ := Option.bind_eq_some_iff.mp known
  have inside := (List.getElem?_eq_some_iff.mp found).1
  rw [requestOf, List.getElem?_append_left inside, found]
  exact made

theorem requestOf_last {posts : List Post} {post : Post} (made : post.inplace = false) :
    requestOf (posts ++ [post]) posts.length = some (post.comm, post.kind) := by
  simp [requestOf, made]

namespace State

def reqsAt (s : State) (key : Nat × Side) : RequestQueue :=
  (s.comms[key.1]?.map (·.reqs key.2)).getD .empty

def taken (s : State) : List Nat := s.stack.flatMap Frame.taken

def waiting (s : State) : List Nat := s.stack.flatMap Frame.waiting

def loops (s : State) : List (Nat × Side) := s.stack.filterMap Frame.loop

def sharedWaiting (s : State) : Multiset Nat := s.sharedQueue + s.localQueue

end State

variable {rank : RankType} {s t : State} {action : Action} {comm op : Nat} {side : Side}
  {key : Nat × Side}

open State

theorem reqsAt_of_found {c : CommunicatorImpl} (found : s.comms[comm]? = some c) (side : Side) :
    s.reqsAt (comm, side) = c.reqs side := by
  simp [reqsAt, found]

theorem queued_iff : s.Queued op ↔ (∃ key, op ∈ (s.reqsAt key).queue) ∨ op ∈ s.sharedWaiting := by
  have own : (∃ (comm : Nat) (c : CommunicatorImpl) (side : Side), s.comms[comm]? = some c ∧ op ∈ (c.reqs side).queue) ↔
      ∃ key, op ∈ (s.reqsAt key).queue := by
    constructor
    · rintro ⟨comm, c, side, found, member⟩
      exact ⟨(comm, side), by rwa [reqsAt_of_found found side]⟩
    · rintro ⟨⟨comm, side⟩, member⟩
      cases found : s.comms[comm]? with
      | none => simp [reqsAt, found, RequestQueue.empty] at member
      | some c => exact ⟨comm, c, side, found, by rwa [reqsAt_of_found found side] at member⟩
  rw [Queued, own, sharedWaiting, Multiset.mem_add, Multiset.mem_coe, Multiset.mem_coe]

theorem reqsAt_same {change : CommunicatorImpl → CommunicatorImpl}
    (comms : t.comms = s.comms.modify comm change)
    (same : ∀ c side, (change c).reqs side = c.reqs side) : t.reqsAt = s.reqsAt := by
  funext ⟨other, side⟩
  simp only [reqsAt, comms]
  rw [map_getElem?_modify fun c => same c side]

theorem reqsAt_setReqs {c : CommunicatorImpl} {reqs : RequestQueue}
    (found : s.comms[comm]? = some c) (comms : t.comms = s.comms.modify comm (·.setReqs side reqs)) :
    t.reqsAt = Function.update s.reqsAt (comm, side) reqs := by
  funext ⟨other, otherSide⟩
  by_cases here : other = comm
  · subst here
    by_cases same : otherSide = side
    · subst same
      simp [reqsAt, comms, found, CommunicatorImpl.reqs_setReqs]
    · rw [Function.update_of_ne (by simp [same])]
      simp [reqsAt, comms, found, CommunicatorImpl.reqs_setReqs, same]
  · rw [Function.update_of_ne (by simp [here])]
    simp [reqsAt, comms, Ne.symm here]

theorem reqsAt_addCommunicator : s.addCommunicator.reqsAt = s.reqsAt := by
  funext ⟨other, side⟩
  simp only [reqsAt, addCommunicator, List.getElem?_append]
  split
  · rfl
  · rename_i outside
    rw [List.getElem?_eq_none (Nat.not_lt.mp outside)]
    cases index : other - s.comms.length with
    | zero => cases side <;> rfl
    | succ index => rfl

theorem reqsAt_create {c : CommunicatorImpl} (kind : Kind) (peer : RankType) (tag : TagType)
    (req : NcclRequest) (found : s.comms[comm]? = some c) (key : Nat × Side) :
    (s.create comm kind peer tag req).reqsAt key =
      if key.1 = comm ∧ key.2.kind = kind then (s.reqsAt key).enqueue s.posts.length
      else s.reqsAt key := by
  obtain ⟨other, side⟩ := key
  by_cases here : other = comm
  · subst here
    cases kind <;> cases side <;>
      simp [reqsAt, create, found, CommunicatorImpl.enqueue, CommunicatorImpl.reqs, Side.kind]
  · simp [reqsAt, create, here, Ne.symm here]

inductive Placing (s : State) (action : Action) (t : State) : Prop
  | keep (top pushed rest : List Frame) : s.stack = top ++ rest → t.stack = pushed ++ rest →
      top.length ≤ 1 → (∀ frame ∈ top, frame.waiting = [] ∧ frame.loop = none) →
      (∀ frame ∈ pushed, frame.taken = [] ∧ frame.loop = none) → t.posts = s.posts →
      t.reqsAt = s.reqsAt → t.sharedWaiting = s.sharedWaiting →
      Event.calledOps t.history = Event.calledOps s.history → Placing s action t
  /-- An exception drops the innermost loop, or a shared receive. -/
  | lost (frame : Frame) (rest : List Frame) : s.stack = frame :: rest → t.stack = rest →
      (action = .callbackThrows ∨ ∃ e, s.Queued e ∧ s.isReady e = none) → t.posts = s.posts →
      t.reqsAt = s.reqsAt → t.sharedWaiting ≤ s.sharedWaiting →
      Event.calledOps t.history = Event.calledOps s.history → Placing s action t
  | made (post : Post) : post.inplace = false → t.stack = s.stack → t.posts = s.posts ++ [post] →
      (∀ key, t.reqsAt key =
        if key.1 = post.comm ∧ key.2.kind = post.kind then (s.reqsAt key).enqueue s.posts.length
        else s.reqsAt key) →
      (post.kind = .sharedRecv ∧ t.sharedWaiting = s.posts.length ::ₘ s.sharedWaiting ∨
        post.kind ≠ .sharedRecv ∧ t.sharedWaiting = s.sharedWaiting) →
      Event.calledOps t.history = Event.calledOps s.history → Placing s action t
  | scanned (comm : Nat) (side : Side) (rest : List Frame) : s.stack = .queue comm side :: rest →
      (s.reqsAt (comm, side)).inProgress = false →
      t.stack = .ready comm side
        ((s.reqsAt (comm, side)).queue.filter (s.isReady · = some true)) :: rest →
      t.posts = s.posts →
      t.reqsAt = Function.update s.reqsAt (comm, side)
        ⟨(s.reqsAt (comm, side)).queue.filter (s.isReady · = some false), true⟩ →
      t.sharedWaiting = s.sharedWaiting →
      Event.calledOps t.history = Event.calledOps s.history → Placing s action t
  | scanFailed (comm : Nat) (side : Side) (rest : List Frame) (queue : List Nat) :
      s.stack = .queue comm side :: rest → (s.reqsAt (comm, side)).inProgress = false →
      t.stack = rest → (∃ e, s.Queued e ∧ s.isReady e = none) → t.posts = s.posts →
      queue ⊆ (s.reqsAt (comm, side)).queue →
      t.reqsAt = Function.update s.reqsAt (comm, side) ⟨queue, true⟩ →
      t.sharedWaiting = s.sharedWaiting →
      Event.calledOps t.history = Event.calledOps s.history → Placing s action t
  | called (comm : Nat) (side : Side) (e : Nat) (waiting : List Nat) (rest : List Frame) :
      s.stack = .ready comm side (e :: waiting) :: rest →
      t.stack = .callback comm side e waiting :: rest → t.posts = s.posts →
      t.reqsAt = s.reqsAt → t.sharedWaiting = s.sharedWaiting →
      Event.calledOps t.history = e ::ₘ Event.calledOps s.history → Placing s action t
  | returned (comm : Nat) (side : Side) (e : Nat) (waiting : List Nat) (rest : List Frame) :
      s.stack = .callback comm side e waiting :: rest →
      t.stack = .ready comm side waiting :: rest → t.posts = s.posts →
      t.reqsAt = s.reqsAt → t.sharedWaiting = s.sharedWaiting →
      Event.calledOps t.history = Event.calledOps s.history → Placing s action t
  | done (comm : Nat) (side : Side) (rest : List Frame) :
      s.stack = .ready comm side [] :: rest → t.stack = side.next comm :: rest →
      t.posts = s.posts →
      t.reqsAt = Function.update s.reqsAt (comm, side)
        { s.reqsAt (comm, side) with inProgress := false } →
      t.sharedWaiting = s.sharedWaiting →
      Event.calledOps t.history = Event.calledOps s.history → Placing s action t
  | found (e : Nat) (rest : List Frame) : s.stack = .context :: rest →
      t.stack = .shared e :: rest → t.posts = s.posts → t.reqsAt = s.reqsAt →
      s.sharedWaiting = e ::ₘ t.sharedWaiting →
      Event.calledOps t.history = e ::ₘ Event.calledOps s.history → Placing s action t

private theorem placing_of_stack (stack : t.stack = s.stack) (posts : t.posts = s.posts)
    (reqs : t.reqsAt = s.reqsAt) (shared : t.sharedWaiting = s.sharedWaiting)
    (history : Event.calledOps t.history = Event.calledOps s.history) : Placing s action t :=
  .keep [] [] s.stack rfl stack (Nat.zero_le 1) nofun nofun posts reqs shared history

private theorem placing_create {before : State} {c : CommunicatorImpl} (kind : Kind)
    (peer : RankType) (tag : TagType) (req : NcclRequest) (found : before.comms[comm]? = some c)
    (stack : before.stack = s.stack) (posts : before.posts = s.posts)
    (reqs : before.reqsAt = s.reqsAt) (shared : before.sharedWaiting = s.sharedWaiting)
    (history : before.history = s.history) : Placing s action (before.create comm kind peer tag req) := by
  refine .made ⟨comm, kind, peer, tag, false⟩ rfl stack (by simp [create, posts]) ?_ ?_
    (congrArg Event.calledOps history)
  · intro key
    rw [reqsAt_create kind peer tag req found, reqs, posts]
  · cases kind with
    | sharedRecv =>
      refine .inl ⟨rfl, ?_⟩
      rw [← shared, ← posts]
      simp only [sharedWaiting, create, ← Multiset.coe_add, Multiset.coe_singleton,
        ← Multiset.singleton_add]
      abel
    | send => exact .inr ⟨by simp, shared⟩
    | recv => exact .inr ⟨by simp, shared⟩

theorem placing_of_effect (settled : s.Settled) (effect : Effect rank s action t) :
    Placing s action t := by
  have named : ∀ {e : Nat}, s.Reported e ∨ s.Queued e → (s.heap e).cb = e := fun here =>
    settled.named (here.elim (settled.reported _) (settled.queued _))
  cases effect with
  | getCommunicator => exact placing_of_stack rfl rfl reqsAt_addCommunicator rfl rfl
  | startGroup => exact placing_of_stack rfl rfl (reqsAt_same rfl (by simp)) rfl rfl
  | endEmpty => exact placing_of_stack rfl rfl (reqsAt_same rfl (by simp)) rfl rfl
  | endGroup => exact placing_of_stack rfl rfl (reqsAt_same rfl (by simp)) rfl rfl
  | postGroup comm kind peer tag stream c info user found =>
    have here : ((s.ncclPost s.posts.length).modifyComm comm
        (·.setGroupInfo (some { info with lastStream := some stream }))).comms[comm]? =
        some (c.setGroupInfo (some { info with lastStream := some stream })) := by
      simp [found]
    exact placing_create kind peer tag _ here rfl rfl (reqsAt_same rfl (by simp)) rfl rfl
  | postSingle comm kind peer tag stream c user found =>
    exact placing_create kind peer tag _ found rfl rfl rfl rfl rfl
  | progress comm c =>
    exact .keep [] [_] s.stack rfl rfl (Nat.zero_le 1) nofun (by simp) rfl rfl rfl rfl
  | contextProgress =>
    exact .keep [] [_] s.stack rfl rfl (Nat.zero_le 1) nofun (by simp) rfl rfl rfl rfl
  | skip comm side c rest stack =>
    exact .keep [_] [_] rest stack rfl (Nat.le_refl 1) (by simp) (by simp) rfl rfl rfl rfl
  | scan comm side c rest stack found idle =>
    have reqs := reqsAt_of_found found side
    refine .scanned comm side rest stack (by rw [reqs, idle]) (by rw [reqs]; rfl) rfl ?_ rfl rfl
    rw [reqs]
    exact reqsAt_setReqs found rfl
  | scanFailed comm side c rest i req scanned stack found idle here failed upto =>
    have reqs := reqsAt_of_found found side
    refine .scanFailed comm side rest scanned.queue stack (by rw [reqs, idle]) rfl
      ⟨req, .inl ⟨comm, c, side, found, List.mem_of_getElem? here⟩, failed⟩ rfl ?_
      (reqsAt_setReqs found rfl) rfl rfl
    rw [reqs]
    exact upto.members
  | call comm side e waiting rest stack =>
    have cb := named (.inl (.inl (by simp [stack])) : s.Reported e ∨ s.Queued e)
    exact .called comm side e waiting rest stack rfl rfl rfl rfl (by simp [cb])
  | done comm side c rest stack found =>
    refine .done comm side rest stack rfl rfl ?_ rfl rfl
    rw [reqsAt_of_found found side]
    exact reqsAt_setReqs found rfl
  | sharedBusy rest stack =>
    exact .keep [_] [] rest stack rfl (Nat.le_refl 1) (by simp) nofun rfl rfl rfl rfl
  | sharedNone rest stack =>
    refine .keep [_] [] rest stack rfl (Nat.le_refl 1) (by simp) nofun rfl rfl ?_ rfl
    simp [sharedWaiting, ← Multiset.coe_add, add_comm]
  | sharedFound rest e skipped left stack _ whole =>
    have cb := named (.inr (.inr (.inl (by simp [whole]))) : s.Reported e ∨ s.Queued e)
    refine .found e rest stack rfl rfl rfl ?_ (by simp [cb])
    simp only [sharedWaiting, whole, setStack_sharedQueue, callCb_sharedQueue,
      releaseSelfRef_sharedQueue, setShared_sharedQueue, setStack_localQueue, callCb_localQueue,
      releaseSelfRef_localQueue, setShared_localQueue, ← Multiset.coe_add, ← Multiset.cons_coe,
      ← Multiset.singleton_add, Multiset.coe_nil]
    abel
  | sharedFailed rest e skipped left stack _ whole failed =>
    refine .lost _ rest stack rfl (.inr ⟨e, .inr (.inl (by simp [whole])), failed⟩) rfl rfl ?_ rfl
    have lost : s.sharedWaiting = e ::ₘ ((left : Multiset Nat) + (s.localQueue ++ skipped : List Nat)) := by
      simp only [sharedWaiting, whole, ← Multiset.coe_add, ← Multiset.cons_coe,
        ← Multiset.singleton_add]
      abel
    rw [lost]
    exact Multiset.le_cons_self _ _
  | returns comm side e waiting rest stack =>
    exact .returned comm side e waiting rest stack rfl rfl rfl rfl rfl
  | sharedReturns e rest stack =>
    exact .keep [_] [] rest stack rfl (Nat.le_refl 1) (by simp) nofun rfl rfl rfl rfl
  | callbackThrows frame e rest stack =>
    exact .lost frame rest stack rfl (.inl rfl) rfl rfl (le_refl _) rfl
  | _ => exact placing_of_stack rfl rfl rfl rfl rfl

namespace State

structure Typed (s : State) : Prop where
  queued : ∀ key, ∀ op ∈ (s.reqsAt key).queue, requestOf s.posts op = some (key.1, key.2.kind)
  taken : ∀ frame ∈ s.stack, ∀ key, frame.loop = some key → ∀ op ∈ frame.taken,
    requestOf s.posts op = some (key.1, key.2.kind)
  shared : ∀ op, op ∈ s.sharedWaiting ∨ Frame.shared op ∈ s.stack →
    ∃ comm, requestOf s.posts op = some (comm, .sharedRecv)

/-- A loop keeps its queue marked, and no queue has two. -/
structure Looping (s : State) : Prop where
  marked : ∀ key ∈ s.loops, (s.reqsAt key).inProgress = true
  single : s.loops.Nodup

/-- No request is in two places, except in a queue whose scan has failed. -/
structure Apart (s : State) : Prop where
  taken : s.taken.Nodup
  queued : ∀ op ∈ s.taken, ¬ s.Queued op
  once : ∀ key, (s.reqsAt key).inProgress = false ∨ key ∈ s.loops → (s.reqsAt key).queue.Nodup
  shared : s.sharedWaiting.Nodup

structure CalledOnce (s : State) : Prop where
  uncalled : ∀ op, s.Queued op ∨ op ∈ s.waiting → op ∉ Event.calledOps s.history
  running : ∀ frame ∈ s.stack, ∀ op, frame.running = some op → op ∈ Event.calledOps s.history
  once : (Event.calledOps s.history).Nodup

structure Placed (s : State) : Prop extends s.Settled where
  typed : s.Typed
  looping : s.Looping
  apart : s.Apart
  calls : s.CalledOnce

end State

theorem home_unique {posts : List Post} {first second : Nat × Side}
    (one : requestOf posts op = some (first.1, first.2.kind))
    (other : requestOf posts op = some (second.1, second.2.kind)) : first = second := by
  rw [one] at other
  obtain ⟨same, kinds⟩ := Prod.mk.inj (Option.some.inj other)
  exact Prod.ext same (Side.kind_injective kinds)

theorem home_own {posts : List Post}
    (own : requestOf posts op = some (key.1, key.2.kind))
    (shared : ∃ comm, requestOf posts op = some (comm, .sharedRecv)) : False := by
  obtain ⟨comm, shared⟩ := shared
  rw [own] at shared
  have kinds := (Prod.mk.inj (Option.some.inj shared)).2
  cases side : key.2 <;> rw [side] at kinds <;> cases kinds

theorem Placing.posts (placing : Placing s action t) : s.posts <+: t.posts := by
  cases placing with
  | made post _ _ posts => exact ⟨[post], posts.symm⟩
  | keep _ _ _ _ _ _ _ _ posts => exact posts ▸ List.prefix_refl _
  | lost _ _ _ _ _ posts => exact posts ▸ List.prefix_refl _
  | scanned _ _ _ _ _ _ posts => exact posts ▸ List.prefix_refl _
  | scanFailed _ _ _ _ _ _ _ _ posts => exact posts ▸ List.prefix_refl _
  | called _ _ _ _ _ _ _ posts => exact posts ▸ List.prefix_refl _
  | returned _ _ _ _ _ _ _ posts => exact posts ▸ List.prefix_refl _
  | done _ _ _ _ _ posts => exact posts ▸ List.prefix_refl _
  | found _ _ _ _ posts => exact posts ▸ List.prefix_refl _

theorem Placing.requestOf {request : Nat × Kind} (placing : Placing s action t)
    (known : requestOf s.posts op = some request) : requestOf t.posts op = some request := by
  obtain ⟨more, grown⟩ := placing.posts
  rw [← grown]
  exact requestOf_append known more

theorem Placing.queue (placing : Placing s action t) (member : op ∈ (t.reqsAt key).queue) :
    op ∈ (s.reqsAt key).queue ∨ op = s.posts.length ∧
      Oomph.requestOf t.posts op = some (key.1, key.2.kind) := by
  cases placing with
  | keep _ _ _ _ _ _ _ _ _ reqs => exact .inl (reqs ▸ member)
  | lost _ _ _ _ _ _ reqs => exact .inl (reqs ▸ member)
  | made post own _ posts reqs =>
    rw [reqs key] at member
    split at member
    · rename_i here
      rcases List.mem_append.mp member with old | new
      · exact .inl old
      · have same := List.mem_singleton.mp new
        refine .inr ⟨same, ?_⟩
        rw [same, posts, requestOf_last own, here.1, here.2]
    · exact .inl member
  | scanned comm side _ _ _ _ _ reqs =>
    rw [reqs] at member
    by_cases same : key = (comm, side)
    · subst same
      rw [Function.update_self] at member
      exact .inl (List.mem_of_mem_filter member)
    · rw [Function.update_of_ne same] at member
      exact .inl member
  | scanFailed comm side _ queue _ _ _ _ _ fewer reqs =>
    rw [reqs] at member
    by_cases same : key = (comm, side)
    · subst same
      rw [Function.update_self] at member
      exact .inl (fewer member)
    · rw [Function.update_of_ne same] at member
      exact .inl member
  | called _ _ _ _ _ _ _ _ reqs => exact .inl (reqs ▸ member)
  | returned _ _ _ _ _ _ _ _ reqs => exact .inl (reqs ▸ member)
  | done comm side _ _ _ _ reqs =>
    rw [reqs] at member
    by_cases same : key = (comm, side)
    · subst same
      rw [Function.update_self] at member
      exact .inl member
    · rw [Function.update_of_ne same] at member
      exact .inl member
  | found _ _ _ _ _ reqs => exact .inl (reqs ▸ member)

theorem Placing.sharedWaiting (placing : Placing s action t) (member : op ∈ t.sharedWaiting) :
    op ∈ s.sharedWaiting ∨ op = s.posts.length ∧
      ∃ comm, Oomph.requestOf t.posts op = some (comm, .sharedRecv) := by
  cases placing with
  | keep _ _ _ _ _ _ _ _ _ _ shared => exact .inl (shared ▸ member)
  | lost _ _ _ _ _ _ _ shared => exact .inl (Multiset.mem_of_le shared member)
  | made post own _ posts _ shared =>
    rcases shared with ⟨kind, shared⟩ | ⟨-, shared⟩
    · rw [shared, Multiset.mem_cons] at member
      rcases member with same | old
      · exact .inr ⟨same, post.comm, by rw [same, posts, requestOf_last own, kind]⟩
      · exact .inl old
    · exact .inl (shared ▸ member)
  | scanned _ _ _ _ _ _ _ _ shared => exact .inl (shared ▸ member)
  | scanFailed _ _ _ _ _ _ _ _ _ _ _ shared => exact .inl (shared ▸ member)
  | called _ _ _ _ _ _ _ _ _ shared => exact .inl (shared ▸ member)
  | returned _ _ _ _ _ _ _ _ _ shared => exact .inl (shared ▸ member)
  | done _ _ _ _ _ _ _ shared => exact .inl (shared ▸ member)
  | found e _ _ _ _ _ shared =>
    rw [shared]
    exact .inl (Multiset.mem_cons_of_mem member)

/-- A frame after a step was there before, has taken nothing, or has taken what was queued or
was taken before, and then waits for nothing else. -/
theorem Placing.frame {frame : Frame} (placing : Placing s action t) (member : frame ∈ t.stack) :
    frame ∈ s.stack ∨ frame.taken = [] ∧ frame.loop = none ∨
      (∃ key, frame.loop = some key ∧
        (∀ op ∈ frame.taken, op ∈ (s.reqsAt key).queue ∨
          ∃ old ∈ s.stack, old.loop = some key ∧ op ∈ old.taken) ∧
        ∀ op ∈ frame.waiting, op ∈ (s.reqsAt key).queue ∨ op ∈ s.waiting) ∨
      ∃ e, frame = .shared e ∧ e ∈ s.sharedWaiting := by
  have below {gone : Frame} {rest : List Frame} (before : s.stack = gone :: rest)
      (old : frame ∈ rest) : frame ∈ s.stack := by
    rw [before]
    exact List.mem_cons_of_mem _ old
  cases placing with
  | keep top pushed rest before after _ _ empty =>
    rw [after] at member
    rcases List.mem_append.mp member with new | old
    · exact .inr (.inl (empty frame new))
    · exact .inl (by rw [before]; exact List.mem_append_right _ old)
  | lost gone rest before after => exact .inl (below before (after ▸ member))
  | made _ _ stack => exact .inl (stack ▸ member)
  | scanned comm side rest before _ after =>
    rw [after] at member
    rcases List.mem_cons.mp member with rfl | old
    · exact .inr (.inr (.inl ⟨(comm, side), rfl, fun op taken => .inl (List.mem_of_mem_filter taken),
        fun op waits => .inl (List.mem_of_mem_filter waits)⟩))
    · exact .inl (below before old)
  | scanFailed comm side rest queue before _ after => exact .inl (below before (after ▸ member))
  | called comm side e waiting rest before after =>
    rw [after] at member
    rcases List.mem_cons.mp member with rfl | old
    · refine .inr (.inr (.inl ⟨(comm, side), rfl, fun op taken => .inr ?_, fun op waits => .inr ?_⟩))
      · exact ⟨.ready comm side (e :: waiting), by simp [before], rfl, taken⟩
      · simp only [State.waiting, before, List.flatMap_cons]
        exact List.mem_append_left _ (List.mem_cons_of_mem _ waits)
    · exact .inl (below before old)
  | returned comm side e waiting rest before after =>
    rw [after] at member
    rcases List.mem_cons.mp member with rfl | old
    · refine .inr (.inr (.inl ⟨(comm, side), rfl, fun op taken => .inr ?_, fun op waits => .inr ?_⟩))
      · exact ⟨.callback comm side e waiting, by simp [before], rfl, List.mem_cons_of_mem _ taken⟩
      · simp only [State.waiting, before, List.flatMap_cons]
        exact List.mem_append_left _ waits
    · exact .inl (below before old)
  | done comm side rest before after =>
    rw [after] at member
    rcases List.mem_cons.mp member with rfl | old
    · exact .inr (.inl (by simp))
    · exact .inl (below before old)
  | found e rest before after _ _ shared =>
    rw [after] at member
    rcases List.mem_cons.mp member with rfl | old
    · exact .inr (.inr (.inr ⟨e, rfl, by rw [shared]; exact Multiset.mem_cons_self _ _⟩))
    · exact .inl (below before old)

theorem State.Typed.step (typed : s.Typed) (placing : Placing s action t) : t.Typed where
  queued key op member := by
    rcases placing.queue member with old | ⟨-, new⟩
    · exact placing.requestOf (typed.queued key op old)
    · exact new
  taken frame member key looping op taken := by
    rcases placing.frame member with old | ⟨empty, -⟩ | ⟨other, same, origin, -⟩ | ⟨e, rfl, -⟩
    · exact placing.requestOf (typed.taken frame old key looping op taken)
    · rw [empty] at taken
      cases taken
    · rw [looping] at same
      cases same
      rcases origin op taken with queued | ⟨old, here, loops, before⟩
      · exact placing.requestOf (typed.queued key op queued)
      · exact placing.requestOf (typed.taken old here key loops op before)
    · cases looping
  shared op member := by
    have known : (op ∈ s.sharedWaiting ∨ Frame.shared op ∈ s.stack) ∨
        ∃ comm, Oomph.requestOf t.posts op = some (comm, .sharedRecv) := by
      rcases member with waits | runs
      · exact (placing.sharedWaiting waits).imp .inl And.right
      · rcases placing.frame runs with old | ⟨empty, -⟩ | ⟨key, looping, -⟩ | ⟨e, same, waits⟩
        · exact .inl (.inr old)
        · cases empty
        · cases looping
        · cases same
          exact .inl (.inl waits)
    rcases known with old | new
    · obtain ⟨comm, known⟩ := typed.shared op old
      exact ⟨comm, placing.requestOf known⟩
    · exact new

inductive Rounds (s : State) (action : Action) (t : State) : Prop
  | keep : t.loops = s.loops → t.reqsAt = s.reqsAt → Rounds s action t
  | lost : (action = .callbackThrows ∨ ∃ e, s.Queued e ∧ s.isReady e = none) →
      t.loops.Sublist s.loops → t.reqsAt = s.reqsAt → Rounds s action t
  | made (post : Post) : t.loops = s.loops →
      (∀ key, t.reqsAt key =
        if key.1 = post.comm ∧ key.2.kind = post.kind then (s.reqsAt key).enqueue s.posts.length
        else s.reqsAt key) → Rounds s action t
  | begin (key : Nat × Side) (queue : List Nat) : (s.reqsAt key).inProgress = false →
      t.loops = key :: s.loops → queue.Sublist (s.reqsAt key).queue →
      t.reqsAt = Function.update s.reqsAt key ⟨queue, true⟩ → Rounds s action t
  | fail (key : Nat × Side) (queue : List Nat) : (∃ e, s.Queued e ∧ s.isReady e = none) →
      (s.reqsAt key).inProgress = false → t.loops = s.loops →
      t.reqsAt = Function.update s.reqsAt key ⟨queue, true⟩ → Rounds s action t
  | finish (key : Nat × Side) : s.loops = key :: t.loops →
      t.reqsAt = Function.update s.reqsAt key { s.reqsAt key with inProgress := false } →
      Rounds s action t

theorem Placing.rounds (placing : Placing s action t) : Rounds s action t := by
  cases placing with
  | keep top pushed rest before after _ gone new _ reqs =>
    have popped : top.filterMap Frame.loop = [] :=
      List.filterMap_eq_nil_iff.mpr fun frame member => (gone frame member).2
    have pushes : pushed.filterMap Frame.loop = [] :=
      List.filterMap_eq_nil_iff.mpr fun frame member => (new frame member).2
    refine .keep ?_ reqs
    rw [State.loops, State.loops, before, after, List.filterMap_append, List.filterMap_append, popped,
      pushes]
  | lost frame rest before after exception _ reqs =>
    refine .lost exception ?_ reqs
    rw [State.loops, State.loops, before, after]
    exact (List.sublist_cons_self _ _).filterMap _
  | made post _ stack _ reqs => exact .made post (by rw [State.loops, State.loops, stack]) reqs
  | scanned comm side rest before idle after _ reqs =>
    refine .begin (comm, side) _ idle ?_ List.filter_sublist reqs
    simp [State.loops, before, after, List.filterMap_cons]
  | scanFailed comm side rest queue before idle after failed _ _ reqs =>
    refine .fail (comm, side) queue failed idle ?_ reqs
    simp [State.loops, before, after, List.filterMap_cons]
  | called comm side e waiting rest before after _ reqs =>
    exact .keep (by simp [State.loops, before, after]) reqs
  | returned comm side e waiting rest before after _ reqs =>
    exact .keep (by simp [State.loops, before, after]) reqs
  | done comm side rest before after _ reqs =>
    exact .finish (comm, side) (by simp [State.loops, before, after]) reqs
  | found e rest before after _ reqs =>
    exact .keep (by simp [State.loops, before, after, List.filterMap_cons]) reqs

theorem State.Looping.not_mem (looping : s.Looping) (idle : (s.reqsAt key).inProgress = false) :
    key ∉ s.loops := by
  intro member
  have busy := looping.marked key member
  rw [idle] at busy
  cases busy

theorem State.Looping.step (looping : s.Looping) (rounds : Rounds s action t) : t.Looping := by
  obtain ⟨marked, single⟩ := looping
  cases rounds with
  | keep loops reqs =>
    exact ⟨fun key member => reqs ▸ marked key (loops ▸ member), loops ▸ single⟩
  | lost _ fewer reqs =>
    exact ⟨fun key member => reqs ▸ marked key (fewer.subset member), single.sublist fewer⟩
  | made post loops reqs =>
    refine ⟨fun key member => ?_, loops ▸ single⟩
    rw [reqs key]
    split
    · exact marked key (loops ▸ member)
    · exact marked key (loops ▸ member)
  | begin here queue idle loops _ reqs =>
    have absent := State.Looping.not_mem ⟨marked, single⟩ idle
    refine ⟨fun key member => ?_, loops ▸ List.nodup_cons.mpr ⟨absent, single⟩⟩
    rw [reqs]
    by_cases same : key = here
    · rw [same, Function.update_self]
    · rw [Function.update_of_ne same]
      rw [loops] at member
      exact marked key ((List.mem_cons.mp member).resolve_left same)
  | fail here queue _ _ loops reqs =>
    refine ⟨fun key member => ?_, loops ▸ single⟩
    rw [reqs]
    by_cases same : key = here
    · rw [same, Function.update_self]
    · rw [Function.update_of_ne same]
      exact marked key (loops ▸ member)
  | finish here loops reqs =>
    rw [loops] at marked single
    obtain ⟨absent, single⟩ := List.nodup_cons.mp single
    refine ⟨fun key member => ?_, single⟩
    have other : key ≠ here := by
      rintro rfl
      exact absent member
    rw [reqs, Function.update_of_ne other]
    exact marked key (List.mem_cons_of_mem _ member)

/-- A queue that is marked in progress has a loop on the stack, if no exception leaves one. -/
def State.MarkedOn (s : State) (key : Nat × Side) : Prop :=
  (s.reqsAt key).inProgress = true → key ∈ s.loops

theorem State.MarkedOn.step (marked : s.MarkedOn key) (returns : action ≠ .callbackThrows)
    (answered : ¬ ∃ op, s.Queued op ∧ s.isReady op = none) (placing : Placing s action t) :
    t.MarkedOn key := by
  intro mark
  cases placing.rounds with
  | keep loops reqs => exact loops ▸ marked (reqs ▸ mark)
  | lost exception =>
    rcases exception with thrown | query
    · exact absurd thrown returns
    · exact absurd query answered
  | made post loops reqs =>
    rw [loops]
    rw [reqs key] at mark
    split at mark <;> exact marked mark
  | begin here queue _ loops _ reqs =>
    rw [loops]
    by_cases same : key = here
    · exact same ▸ List.mem_cons_self
    · rw [reqs, Function.update_of_ne same] at mark
      exact List.mem_cons_of_mem _ (marked mark)
  | fail here queue failed => exact absurd failed answered
  | finish here loops reqs =>
    by_cases same : key = here
    · rw [reqs, same, Function.update_self] at mark
      cases mark
    · rw [reqs, Function.update_of_ne same] at mark
      have looping := marked mark
      rw [loops] at looping
      exact (List.mem_cons.mp looping).resolve_left same

theorem Placing.queued (placing : Placing s action t) (queued : t.Queued op) :
    s.Queued op ∨ op = s.posts.length := by
  rcases queued_iff.mp queued with ⟨key, member⟩ | shared
  · exact (placing.queue member).imp (fun old => queued_iff.mpr (.inl ⟨key, old⟩)) And.left
  · exact (placing.sharedWaiting shared).imp (fun old => queued_iff.mpr (.inr old)) And.left

theorem State.Settled.taken_lt (settled : s.Settled) (taken : op ∈ s.taken) : op < s.posts.length :=
  settled.reported op (.inl taken)

private theorem once_step (apart : s.Apart) (settled : s.Settled) (looping : s.Looping)
    (rounds : Rounds s action t) (callable : (t.reqsAt key).inProgress = false ∨ key ∈ t.loops) :
    (t.reqsAt key).queue.Nodup := by
  cases rounds with
  | keep loops reqs =>
    rw [reqs, loops] at callable
    exact reqs ▸ apart.once key callable
  | lost _ fewer reqs =>
    rw [reqs] at callable ⊢
    exact apart.once key (callable.imp_right fun member => fewer.subset member)
  | made post loops reqs =>
    have absent : s.posts.length ∉ (s.reqsAt key).queue := fun member =>
      Nat.lt_irrefl _ (settled.queued _ (queued_iff.mpr (.inl ⟨key, member⟩)))
    rw [loops, reqs key] at callable
    rw [reqs key]
    split at callable
    · rw [if_pos ‹_›]
      have longer := (apart.once key callable).concat absent
      rwa [List.concat_eq_append] at longer
    · rw [if_neg ‹_›]
      exact apart.once key callable
  | begin here queue idle loops fewer reqs =>
    rw [reqs] at callable ⊢
    by_cases same : key = here
    · rw [same, Function.update_self]
      exact (apart.once here (.inl idle)).sublist fewer
    · rw [Function.update_of_ne same, loops] at callable
      rw [Function.update_of_ne same]
      exact apart.once key (callable.imp_right fun member =>
        (List.mem_cons.mp member).resolve_left same)
  | fail here queue _ idle loops reqs =>
    rw [reqs, loops] at callable
    rw [reqs]
    by_cases same : key = here
    · -- the queue stays marked, and no loop goes over it
      subst same
      rw [Function.update_self] at callable
      rcases callable with free | member
      · cases free
      · exact absurd member (looping.not_mem idle)
    · rw [Function.update_of_ne same] at callable ⊢
      exact apart.once key callable
  | finish here loops reqs =>
    rw [reqs] at callable ⊢
    by_cases same : key = here
    · rw [same, Function.update_self]
      exact apart.once here (.inr (by rw [loops]; exact List.mem_cons_self))
    · rw [Function.update_of_ne same] at callable ⊢
      refine apart.once key (callable.imp_right fun member => ?_)
      rw [loops]
      exact List.mem_cons_of_mem _ member

/-- What a scan takes out of a queue is queued nowhere else. -/
private theorem not_queued_of_scanned (typed : s.Typed)
    (reqs : t.reqsAt = Function.update s.reqsAt key
      ⟨(s.reqsAt key).queue.filter (s.isReady · = some false), true⟩)
    (shared : t.sharedWaiting = s.sharedWaiting) (waits : op ∈ (s.reqsAt key).queue)
    (ready : s.isReady op = some true) : ¬ t.Queued op := by
  intro queued
  rcases queued_iff.mp queued with ⟨other, still⟩ | still
  · rw [reqs] at still
    by_cases same : other = key
    · subst same
      rw [Function.update_self, List.mem_filter] at still
      simp [ready] at still
    · rw [Function.update_of_ne same] at still
      exact same (home_unique (typed.queued other op still) (typed.queued _ op waits))
  · exact home_own (typed.queued _ op waits) (typed.shared op (.inl (shared ▸ still)))

theorem State.Apart.step (apart : s.Apart) (settled : s.Settled) (typed : s.Typed)
    (looping : s.Looping) (placing : Placing s action t) : t.Apart := by
  have once : ∀ key, (t.reqsAt key).inProgress = false ∨ key ∈ t.loops → (t.reqsAt key).queue.Nodup :=
    fun _ => once_step apart settled looping placing.rounds
  -- what was taken before is not queued
  have still (op : Nat) (taken : op ∈ s.taken) (queued : t.Queued op) : False := by
    rcases placing.queued queued with old | new
    · exact apart.queued op taken old
    · exact Nat.ne_of_lt (settled.taken_lt taken) new
  have fewer (taken : t.taken.Sublist s.taken) (shared : t.sharedWaiting.Nodup) : t.Apart :=
    ⟨apart.taken.sublist taken, fun op member => still op (taken.subset member), once, shared⟩
  cases placing with
  | lost frame rest before after _ _ reqs shared =>
    exact fewer (by simp [State.taken, before, after]) (Multiset.nodup_of_le shared apart.shared)
  | keep top pushed rest before after _ _ empty _ reqs shared =>
    have none : pushed.flatMap Frame.taken = [] :=
      List.flatMap_eq_nil_iff.mpr fun frame member => (empty frame member).1
    refine fewer ?_ (shared ▸ apart.shared)
    rw [State.taken, State.taken, before, after, List.flatMap_append, List.flatMap_append, none,
      List.nil_append]
    exact List.sublist_append_right _ _
  | made post own stack posts reqs shared =>
    refine fewer (by rw [State.taken, State.taken, stack]) ?_
    rcases shared with ⟨-, shared⟩ | ⟨-, shared⟩
    · rw [shared, Multiset.nodup_cons]
      exact ⟨fun member => Nat.lt_irrefl _ (settled.queued _ (queued_iff.mpr (.inr member))),
        apart.shared⟩
    · exact shared ▸ apart.shared
  | scanned comm side rest before idle after posts reqs shared =>
    have new : t.taken = (s.reqsAt (comm, side)).queue.filter (s.isReady · = some true) ++
        s.taken := by simp [State.taken, before, after]
    refine ⟨?_, fun op member => ?_, once, shared ▸ apart.shared⟩
    · rw [new]
      refine List.nodup_append'.mpr ⟨(apart.once _ (.inl idle)).filter _, apart.taken, ?_⟩
      exact fun op member taken =>
        apart.queued op taken (queued_iff.mpr (.inl ⟨_, List.mem_of_mem_filter member⟩))
    · rw [new] at member
      rcases List.mem_append.mp member with ready | taken
      · obtain ⟨waits, ready⟩ := List.mem_filter.mp ready
        exact not_queued_of_scanned typed reqs shared waits (of_decide_eq_true ready)
      · exact still op taken
  | scanFailed comm side rest queue before idle after _ _ _ reqs shared =>
    exact fewer (by simp [State.taken, before, after]) (shared ▸ apart.shared)
  | called comm side e waiting rest before after _ reqs shared =>
    exact fewer (by simp [State.taken, before, after]) (shared ▸ apart.shared)
  | returned comm side e waiting rest before after _ reqs shared =>
    exact fewer (by simp [State.taken, before, after]) (shared ▸ apart.shared)
  | done comm side rest before after _ reqs shared =>
    exact fewer (by simp [State.taken, before, after]) (shared ▸ apart.shared)
  | found e rest before after _ reqs shared =>
    have new : t.taken = e :: s.taken := by simp [State.taken, before, after]
    have waits : e ∈ s.sharedWaiting := by
      rw [shared]
      exact Multiset.mem_cons_self _ _
    have single := apart.shared
    rw [shared, Multiset.nodup_cons] at single
    refine ⟨?_, fun op member => ?_, once, single.2⟩
    · rw [new, List.nodup_cons]
      exact ⟨fun taken => apart.queued e taken (queued_iff.mpr (.inr waits)), apart.taken⟩
    · rw [new] at member
      rcases List.mem_cons.mp member with rfl | taken
      · intro queued
        rcases queued_iff.mp queued with ⟨key, own⟩ | again
        · rw [reqs] at own
          exact home_own (typed.queued key op own) (typed.shared op (.inl waits))
        · exact single.1 again
      · exact still op taken

theorem Placing.pending (placing : Placing s action t) (waits : t.Queued op ∨ op ∈ t.waiting) :
    (s.Queued op ∨ op ∈ s.waiting) ∨ op = s.posts.length := by
  rcases waits with queued | waits
  · exact (placing.queued queued).imp_left .inl
  · obtain ⟨frame, member, here⟩ := List.mem_flatMap.mp waits
    have taken := frame.waiting_sublist.subset here
    refine .inl ?_
    rcases placing.frame member with old | ⟨empty, -⟩ | ⟨key, -, -, origin⟩ | ⟨e, rfl, -⟩
    · exact .inr (List.mem_flatMap.mpr ⟨frame, old, here⟩)
    · rw [empty] at taken
      cases taken
    · exact (origin op here).imp_left fun queued => queued_iff.mpr (.inl ⟨key, queued⟩)
    · cases here

private theorem calledOnce_of_same (calls : s.CalledOnce) (settled : s.Settled) (placing : Placing s action t)
    (history : Event.calledOps t.history = Event.calledOps s.history)
    (running : ∀ frame ∈ t.stack, ∀ op, frame.running = some op → frame ∈ s.stack) :
    t.CalledOnce where
  uncalled op waits := by
    rw [history]
    rcases placing.pending waits with old | rfl
    · exact calls.uncalled op old
    · exact fun called => Nat.lt_irrefl _ (settled.reported _ (.inr (.inl called)))
  running frame member op runs := by
    rw [history]
    exact calls.running frame (running frame member op runs) op runs
  once := history ▸ calls.once

private theorem calledOnce_of_call {e : Nat} {frame : Frame} {rest : List Frame} (calls : s.CalledOnce)
    (settled : s.Settled) (apart : t.Apart) (placing : Placing s action t)
    (history : Event.calledOps t.history = e ::ₘ Event.calledOps s.history)
    (waited : s.Queued e ∨ e ∈ s.waiting) (stack : t.stack = frame :: rest)
    (runs : frame.taken = e :: frame.waiting) (old : rest ⊆ s.stack) : t.CalledOnce := by
  have uncalled := calls.uncalled e waited
  refine ⟨fun op waits called => ?_, fun other member op running => ?_, ?_⟩
  · rw [history, Multiset.mem_cons] at called
    rcases called with rfl | called
    · have taken : op ∈ t.taken := by simp [State.taken, stack, runs]
      rcases waits with queued | waits
      · exact apart.queued op taken queued
      · have distinct := apart.taken
        simp only [State.taken, stack, List.flatMap_cons, runs, List.cons_append,
          List.nodup_cons, List.mem_append] at distinct
        simp only [State.waiting, stack, List.flatMap_cons, List.mem_append] at waits
        rcases waits with here | below
        · exact distinct.1 (.inl here)
        · obtain ⟨other, member, inside⟩ := List.mem_flatMap.mp below
          exact distinct.1 (.inr (List.mem_flatMap.mpr
            ⟨other, member, other.waiting_sublist.subset inside⟩))
    · rcases placing.pending waits with before | rfl
      · exact calls.uncalled op before called
      · exact Nat.lt_irrefl _ (settled.reported _ (.inr (.inl called)))
  · rw [history, Multiset.mem_cons]
    rw [stack] at member
    rcases List.mem_cons.mp member with rfl | below
    · rw [other.taken_eq, running] at runs
      exact .inl (List.cons.inj runs).1
    · exact .inr (calls.running other (old below) op running)
  · rw [history, Multiset.nodup_cons]
    exact ⟨uncalled, calls.once⟩

theorem State.CalledOnce.step (calls : s.CalledOnce) (settled : s.Settled) (apart : t.Apart)
    (placing : Placing s action t) : t.CalledOnce := by
  have whole := placing
  cases placing with
  | lost frame rest before after _ _ _ _ history =>
    refine calledOnce_of_same calls settled whole history fun other member op runs => ?_
    rw [before, ← after]
    exact List.mem_cons_of_mem _ member
  | keep top pushed rest before after _ _ empty _ _ _ history =>
    refine calledOnce_of_same calls settled whole history fun frame member op runs => ?_
    rw [after] at member
    rcases List.mem_append.mp member with new | old
    · rw [Frame.running_of_taken (empty frame new).1] at runs
      cases runs
    · rw [before]
      exact List.mem_append_right _ old
  | made _ _ stack _ _ _ history =>
    exact calledOnce_of_same calls settled whole history fun frame member _ _ => stack ▸ member
  | scanned comm side rest before _ after _ _ _ history =>
    refine calledOnce_of_same calls settled whole history fun frame member op runs => ?_
    rw [after] at member
    rcases List.mem_cons.mp member with rfl | old
    · cases runs
    · rw [before]
      exact List.mem_cons_of_mem _ old
  | scanFailed comm side rest queue before _ after _ _ _ _ _ history =>
    refine calledOnce_of_same calls settled whole history fun frame member op runs => ?_
    rw [before, ← after]
    exact List.mem_cons_of_mem _ member
  | called comm side e waiting rest before after _ _ _ history =>
    refine calledOnce_of_call calls settled apart whole history (.inr ?_) after rfl ?_
    · simp [State.waiting, before]
    · rw [before]
      exact List.subset_cons_self _ _
  | returned comm side e waiting rest before after _ _ _ history =>
    refine calledOnce_of_same calls settled whole history fun frame member op runs => ?_
    rw [after] at member
    rcases List.mem_cons.mp member with rfl | old
    · cases runs
    · rw [before]
      exact List.mem_cons_of_mem _ old
  | done comm side rest before after _ _ _ history =>
    refine calledOnce_of_same calls settled whole history fun frame member op runs => ?_
    rw [after] at member
    rcases List.mem_cons.mp member with rfl | old
    · cases side <;> cases runs
    · rw [before]
      exact List.mem_cons_of_mem _ old
  | found e rest before after _ _ shared history =>
    refine calledOnce_of_call calls settled apart whole history (.inl (queued_iff.mpr (.inr ?_))) after
      rfl ?_
    · rw [shared]
      exact Multiset.mem_cons_self _ _
    · rw [before]
      exact List.subset_cons_self _ _

theorem State.Placed.initial : Placed initial where
  toSettled := Settled.initial
  typed := {
    queued := fun _ _ member => by cases member
    taken := nofun
    shared := fun _ member => by rcases member with waits | runs; cases waits; cases runs }
  looping := ⟨nofun, List.nodup_nil⟩
  apart := ⟨List.nodup_nil, nofun, fun _ _ => List.nodup_nil, Multiset.nodup_zero⟩
  calls := ⟨fun _ _ => Multiset.notMem_zero _, nofun, Multiset.nodup_zero⟩

theorem State.Placed.step (placed : s.Placed) (effect : Effect rank s action t) : t.Placed := by
  have placing := placing_of_effect placed.toSettled effect
  have apart := placed.apart.step placed.toSettled placed.typed placed.looping placing
  exact ⟨placed.toSettled.step effect, placed.typed.step placing, placed.looping.step placing.rounds,
    apart, placed.calls.step placed.toSettled apart placing⟩

theorem State.Placed.of_reaches {allowed : State → Action → Prop}
    (reached : Reaches (Nccl.step rank) allowed State.initial s) : s.Placed :=
  Reaches.invariant Placed Placed.initial
    (fun _ _ _ placed _ taken => placed.step (step_effect taken)) reached

end Oomph.Nccl
