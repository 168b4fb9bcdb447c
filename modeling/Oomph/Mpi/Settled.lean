import Oomph.Mpi.Custody
import Oomph.Mpi.Effects

namespace Oomph.Mpi

open Machine

def Side.kind : Side → Kind
  | .sends => .send
  | .recvs => .recv

namespace State

def requestKind (s : State) (e : Nat) : Option Kind :=
  s.posts[e]?.bind fun post => if post.inplace then none else some post.kind

structure Typed (s : State) : Prop where
  queued : ∀ side, ∀ e ∈ (s.reqs side).queue, s.requestKind e = some side.kind
  readied : ∀ side, ∀ e ∈ (s.reqs side).readyQueue, s.requestKind e = some side.kind
  sharedQueued : ∀ e ∈ s.shared.queue, s.requestKind e = some .sharedRecv
  sharedRuns : ∀ e, Frame.shared e ∈ s.stack → s.requestKind e = some .sharedRecv
  inplaceRuns : ∀ op, Frame.inplace op ∈ s.stack ∨ Frame.sharedInplace op ∈ s.stack →
    op < s.posts.length ∧ s.requestKind op = none

def Recorded (s : State) : Prop :=
  ∀ e post, s.posts[e]? = some post → post.comm = 0 ∧
    (post.inplace = false →
      (s.heap e).identity = RequestStateBase.create 0 post.kind post.rank post.tag e)

end State

variable {limit : Nat} {s t : State} {action : Action}

open State

private theorem loops_plain (loops : s.Loops) (pushed kept : List Frame)
    (stack : t.stack = pushed ++ kept) (suffix : kept <:+ s.stack)
    (plain : ∀ frame ∈ pushed, frame.side = none)
    (sends : t.sends.readyQueue = s.sends.readyQueue ∧ t.sends.inProgress = s.sends.inProgress)
    (recvs : t.recvs.readyQueue = s.recvs.readyQueue ∧ t.recvs.inProgress = s.recvs.inProgress) :
    t.Loops := by
  refine loops.keep pushed kept stack suffix plain fun _ _ side _ => ?_
  cases side
  · exact sends
  · exact recvs

private theorem loops_side (loops : s.Loops) (side : Side) (pushed kept : List Frame)
    (stack : t.stack = pushed ++ kept) (suffix : kept <:+ s.stack)
    (plain : ∀ frame ∈ pushed, frame.side = none)
    (idle : ∀ frame ∈ kept, frame.side ≠ some side)
    (others : ∀ other, other ≠ side → t.reqs other = s.reqs other) : t.Loops := by
  refine loops.keep pushed kept stack suffix plain fun frame member other found => ?_
  have different : other ≠ side := fun same => idle frame member (same ▸ found)
  rw [others other different]
  exact ⟨rfl, rfl⟩

theorem State.Loops.effect (loops : s.Loops) (effect : Effect limit s action t) : t.Loops := by
  cases effect with
  | none => exact loops
  | create kind rank tag =>
    cases kind <;>
      exact loops_plain loops [] s.stack rfl (List.suffix_refl _) (by simp) ⟨rfl, rfl⟩ ⟨rfl, rfl⟩
  | runInplace kind rank tag =>
    cases kind <;>
      exact loops_plain loops [_] s.stack rfl (List.suffix_refl _) (by simp) ⟨rfl, rfl⟩ ⟨rfl, rfl⟩
  | call stage =>
    exact loops_plain loops [.progress stage] s.stack rfl (List.suffix_refl _) (by simp) ⟨rfl, rfl⟩ ⟨rfl, rfl⟩
  | advance stage next rest answer stack =>
    exact loops_plain loops [.progress next] rest rfl ⟨[_], stack.symm⟩ (by simp) ⟨rfl, rfl⟩ ⟨rfl, rfl⟩
  | leave stage rest found stack =>
    exact loops_plain loops [] rest rfl ⟨[_], stack.symm⟩ (by simp) ⟨rfl, rfl⟩ ⟨rfl, rfl⟩
  | testFailed stage side rest stack free =>
    have idle : ∀ frame ∈ rest, frame.side ≠ some side := fun frame member =>
      loops.idle free frame (by rw [stack]; exact List.mem_cons_of_mem _ member)
    refine loops_side loops side [] rest rfl ⟨[_], stack.symm⟩ (by simp) idle
      fun other different => ?_
    cases side <;> cases other <;> first | contradiction | rfl
  | testEmpty stage next side rest stack free =>
    have idle : ∀ frame ∈ rest, frame.side ≠ some side := fun frame member =>
      loops.idle free frame (by rw [stack]; exact List.mem_cons_of_mem _ member)
    refine loops_side loops side [.progress next] rest rfl ⟨[_], stack.symm⟩ (by simp) idle
      fun other different => ?_
    cases side <;> cases other <;> first | contradiction | rfl
  | compact stage next side rest positions stack free =>
    have idle : ∀ frame ∈ rest, frame.side ≠ some side := fun frame member =>
      loops.idle free frame (by rw [stack]; exact List.mem_cons_of_mem _ member)
    refine loops.enter [.progress next] rest rfl ⟨[_], stack.symm⟩ (by simp) idle
      (fun other different => ?_) ⟨?_, ?_, Nat.zero_le _, by simp⟩
    · cases side <;> cases other <;> first | contradiction | rfl
    · cases side <;> rfl
    · cases side <;> rfl
  | visit side position finish e rest stack more next =>
    have looping := loops.intact side position finish none (by simp [stack])
    refine loops.enter [] rest rfl ⟨[_], stack.symm⟩ (by simp) (loops.idle_rest stack)
      (fun other _ => by cases other <;> rfl) ?_
    exact ⟨looping.active, looping.bound, looping.within, by rintro x ⟨⟩; exact next⟩
  | loopEnd side position finish rest stack done =>
    refine loops_side loops side [] rest rfl ⟨[_], stack.symm⟩ (by simp) (loops.idle_rest stack)
      fun other different => ?_
    cases side <;> cases other <;> first | contradiction | rfl
  | returnInplace op rest stack =>
    exact loops_plain loops [] rest rfl ⟨[_], stack.symm⟩ (by simp) ⟨rfl, rfl⟩ ⟨rfl, rfl⟩
  | returnSharedInplace op rest stack =>
    exact loops_plain loops [] rest rfl ⟨[_], stack.symm⟩ (by simp) ⟨rfl, rfl⟩ ⟨rfl, rfl⟩
  | returnReady side position finish e rest stack =>
    have looping := loops.intact side position finish (some e) (by simp [stack])
    have inside : position < finish := by
      rw [looping.bound]
      exact (List.getElem?_eq_some_iff.mp (looping.visiting e rfl)).1
    refine loops.enter [] rest rfl ⟨[_], stack.symm⟩ (by simp) (loops.idle_rest stack)
      (fun other _ => by cases other <;> rfl) ?_
    exact ⟨looping.active, looping.bound, inside, by simp⟩
  | popShared stage position e rest stack =>
    exact loops_plain loops [.shared e] rest rfl ⟨[_], stack.symm⟩ (by simp) ⟨rfl, rfl⟩ ⟨rfl, rfl⟩
  | returnShared e rest stack =>
    exact loops_plain loops [] rest rfl ⟨[_], stack.symm⟩ (by simp) ⟨rfl, rfl⟩ ⟨rfl, rfl⟩
  | cancelRecv e x op held waits found handle =>
    obtain ⟨heap, queue, equal, -⟩ := withdrawRecv_spec op found
    rw [equal]
    exact loops_plain loops [] s.stack rfl (List.suffix_refl _) (by simp) ⟨rfl, rfl⟩ ⟨rfl, rfl⟩
  | _ => exact loops_plain loops [] s.stack rfl (List.suffix_refl _) (by simp) ⟨rfl, rfl⟩ ⟨rfl, rfl⟩

namespace Frame

def Starts (s : State) : Frame → Prop
  | .shared e => e ∈ s.shared.queue
  | .ready _ _ _ _ => True
  | .progress _ => True
  | _ => False

end Frame

/-- What every step but a post does: no request is new anywhere, and every request keeps
its identity. -/
structure Settled (s t : State) : Prop where
  posts : t.posts = s.posts
  queue : ∀ side, (t.reqs side).queue ⊆ (s.reqs side).queue
  ready : ∀ side, ∀ e ∈ (t.reqs side).readyQueue,
    e ∈ (s.reqs side).readyQueue ∨ e ∈ (s.reqs side).queue
  shared : t.shared.queue ⊆ s.shared.queue
  frames : ∀ frame ∈ t.stack, frame ∈ s.stack ∨ frame.Starts s
  identity : ∀ e, (t.heap e).identity = (s.heap e).identity

private theorem settled_of_frames (posts : t.posts = s.posts) (sends : t.sends = s.sends)
    (recvs : t.recvs = s.recvs) (shared : t.shared.queue ⊆ s.shared.queue)
    (frames : ∀ frame ∈ t.stack, frame ∈ s.stack ∨ frame.Starts s)
    (identity : ∀ e, (t.heap e).identity = (s.heap e).identity) : Settled s t := by
  have same : ∀ side, t.reqs side = s.reqs side := by
    intro side
    cases side
    · exact sends
    · exact recvs
  refine ⟨posts, fun side => ?_, fun side e member => .inl ?_, shared, frames, identity⟩
  · rw [same side]
    exact List.Subset.refl _
  · rwa [same side] at member

private theorem settled_of_side (side : Side) (ready : List Nat) (mark : Bool) (stack : List Frame)
    (cleared : ready ⊆ (s.reqs side).readyQueue)
    (frames : ∀ frame ∈ stack, frame ∈ s.stack ∨ frame.Starts s) :
    Settled s { s.setReqs side
      { s.reqs side with readyQueue := ready, inProgress := mark } with stack } := by
  refine ⟨by simp, fun other => ?_, fun other e member => .inl ?_, by simp, frames, by simp⟩
  · cases side <;> cases other <;> exact List.Subset.refl _
  · cases side <;> cases other <;> first | exact member | exact cleared member

private theorem starts_of_rest {frame head : Frame} {rest : List Frame} (pushed : List Frame)
    (stack : s.stack = head :: rest) (new : ∀ frame ∈ pushed, frame.Starts s)
    (member : frame ∈ pushed ++ rest) : frame ∈ s.stack ∨ frame.Starts s := by
  rcases List.mem_append.mp member with starts | old
  · exact .inr (new frame starts)
  · rw [stack]
    exact .inl (List.mem_cons_of_mem _ old)

theorem OnlyIndices.identity {before after : Heap} (only : OnlyIndices before after) (e : Nat) :
    (after e).identity = (before e).identity := by
  rw [only e]

theorem identity_update {heap : Heap} {e : Nat} {request : RequestState}
    (same : request.identity = (heap e).identity) (x : Nat) :
    (Function.update heap e request x).identity = (heap x).identity :=
  attr_update (fun request : RequestState => request.identity) same x

section Identity

variable (e x op : Nat) (flag : Bool)

@[simp] theorem index_releaseSelfRef : ((s.releaseSelfRef e).heap x).index = (s.heap x).index :=
  attr_update RequestState.index (by rfl) x

@[simp] theorem index_finishCb : ((s.finishCb e).heap x).index = (s.heap x).index :=
  attr_update RequestState.index (by rfl) x

@[simp] theorem index_setCanceled : ((s.setCanceled e).heap x).index = (s.heap x).index :=
  attr_update RequestState.index (by rfl) x

@[simp] theorem index_cancelHandle :
    ((s.cancelHandle e op flag).heap x).index = (s.heap x).index :=
  attr_update RequestState.index (by rfl) x

@[simp] theorem callCb_heap : (s.callCb e).heap = s.heap := rfl

@[simp] theorem identity_releaseSelfRef :
    ((s.releaseSelfRef e).heap x).identity = (s.heap x).identity :=
  identity_update (by rfl) x

@[simp] theorem identity_finishCb : ((s.finishCb e).heap x).identity = (s.heap x).identity :=
  identity_update (by rfl) x

@[simp] theorem identity_setCanceled :
    ((s.setCanceled e).heap x).identity = (s.heap x).identity :=
  identity_update (by rfl) x

@[simp] theorem identity_cancelHandle :
    ((s.cancelHandle e op flag).heap x).identity = (s.heap x).identity :=
  identity_update (by rfl) x

@[simp] theorem identity_startReady (side : Side) (position finish : Nat) (rest : List Frame) :
    ((s.startReady side position finish e rest).heap x).identity = (s.heap x).identity :=
  identity_releaseSelfRef e x

@[simp] theorem identity_startShared (position : Nat) (rest : List Frame) :
    ((s.startShared position e rest).heap x).identity = (s.heap x).identity :=
  identity_update (by rfl) x

@[simp] theorem identity_withdrawShared :
    ((s.withdrawShared e op).heap x).identity = (s.heap x).identity := by
  simp [withdrawShared]

@[simp] theorem index_startReady (side : Side) (position finish : Nat) (rest : List Frame) :
    ((s.startReady side position finish e rest).heap x).index = (s.heap x).index :=
  index_releaseSelfRef e x

@[simp] theorem index_startShared (position : Nat) (rest : List Frame) :
    ((s.startShared position e rest).heap x).index = (s.heap x).index :=
  attr_update RequestState.index (by rfl) x

@[simp] theorem index_withdrawShared :
    ((s.withdrawShared e op).heap x).index = (s.heap x).index := by
  simp [withdrawShared]

end Identity

theorem settled_enterLoop {side : Side} {stage : Stage} {rest : List Frame}
    (positions : List Nat) (next : Stage) (stack : s.stack = .progress stage :: rest)
    (distinct : (s.reqs side).queue.Nodup) (indexed : Indexed s.heap (s.reqs side).queue) :
    Settled s (s.enterLoop side positions next rest) := by
  obtain ⟨kept, ready⟩ := compact_split s.heap (s.reqs side).queue positions
  have parts := split_add positions 0 (s.reqs side).queue
  have inside : ∀ e, e ∈ (split positions 0 (s.reqs side).queue).1 ∨
      e ∈ (split positions 0 (s.reqs side).queue).2 → e ∈ (s.reqs side).queue := by
    intro e member
    rw [← Multiset.mem_coe, ← parts, Multiset.mem_add]
    exact member
  constructor
  · exact setReqs_posts _ _ _
  · intro other e member
    by_cases same : other = side
    · subst other
      have : e ∈ (compact s.heap (s.reqs side).queue positions).queue := by
        cases side <;> exact member
      rw [kept] at this
      exact inside e (.inl this)
    · cases side <;> cases other <;> first | contradiction | exact member
  · intro other e member
    by_cases same : other = side
    · subst other
      have : e ∈ (compact s.heap (s.reqs side).queue positions).ready := by
        cases side <;> exact member
      rw [ready] at this
      exact .inr (inside e (.inr this))
    · cases side <;> cases other <;> first | contradiction | exact .inl member
  · have same : (s.compacted side positions).shared = s.shared := by cases side <;> rfl
    intro e member
    rw [← same]
    exact member
  · intro frame member
    exact starts_of_rest [_, _] stack (by simp [Frame.Starts]) member
  · exact fun e => (compact_heap positions distinct indexed).1.identity e

theorem settled_withdrawRecv {e x : Nat} (op : Nat)
    (found : s.recvs.queue[(s.heap e).index]? = some x) : Settled s (s.withdrawRecv e x op) := by
  obtain ⟨heap, queue, equal, whole, only, -⟩ := withdrawRecv_spec op found
  rw [equal]
  have inside : queue ⊆ s.recvs.queue := by
    intro other member
    rw [← Multiset.mem_coe, whole]
    exact Multiset.mem_cons_of_mem member
  refine ⟨rfl, fun side => ?_, fun side other member => ?_, List.Subset.refl _, fun _ => .inl,
    fun other => ?_⟩
  · cases side with
    | sends => exact List.Subset.refl _
    | recvs => exact inside
  · cases side <;> exact .inl member
  · refine (only.identity other).trans ?_
    simp

/-- A step makes a request, runs a callback in place, or settles. -/
theorem effect_settled (distinct : ∀ side, (s.reqs side).queue.Nodup)
    (indexed : ∀ side, Indexed s.heap (s.reqs side).queue) (effect : Effect limit s action t) :
    Settled s t ∨ ∃ kind rank tag, t = s.create kind rank tag ∨ t = s.runInplace kind rank tag := by
  cases effect with
  | create kind rank tag => exact .inr ⟨kind, rank, tag, .inl rfl⟩
  | runInplace kind rank tag => exact .inr ⟨kind, rank, tag, .inr rfl⟩
  | none =>
    exact .inl (settled_of_frames rfl rfl rfl (List.Subset.refl _) (fun _ => .inl) fun _ => rfl)
  | fault =>
    exact .inl (settled_of_frames rfl rfl rfl (List.Subset.refl _) (fun _ => .inl) fun _ => rfl)
  | call stage =>
    refine .inl (settled_of_frames rfl rfl rfl (List.Subset.refl _) (fun frame member => ?_) fun _ => rfl)
    rcases List.mem_cons.mp member with new | old
    · subst frame
      exact .inr trivial
    · exact .inl old
  | advance stage next rest answer stack =>
    exact .inl (settled_of_frames rfl rfl rfl (List.Subset.refl _)
      (fun _ => starts_of_rest [.progress next] stack (by simp [Frame.Starts])) fun _ => rfl)
  | leave stage rest found stack =>
    exact .inl (settled_of_frames rfl rfl rfl (List.Subset.refl _) (fun _ => starts_of_rest [] stack (by simp)) fun _ => rfl)
  | testFailed stage side rest stack =>
    exact .inl (settled_of_side side [] true rest (List.nil_subset _)
      fun _ => starts_of_rest [] stack (by simp))
  | testEmpty stage next side rest stack =>
    exact .inl (settled_of_side side [] false (.progress next :: rest) (List.nil_subset _)
      fun _ => starts_of_rest [.progress next] stack (by simp [Frame.Starts]))
  | compact stage next side rest positions stack =>
    exact .inl (settled_enterLoop positions next stack (distinct side) (indexed side))
  | visit side position finish e rest stack =>
    exact .inl (settled_of_frames rfl rfl rfl (List.Subset.refl _) (fun _ => starts_of_rest [_] stack (by simp [Frame.Starts]))
      fun x => by simp)
  | loopEnd side position finish rest stack =>
    exact .inl (settled_of_side side _ false rest (List.Subset.refl _)
      fun _ => starts_of_rest [] stack (by simp))
  | returnInplace op rest stack =>
    exact .inl (settled_of_frames rfl rfl rfl (List.Subset.refl _) (fun _ => starts_of_rest [] stack (by simp)) fun _ => rfl)
  | returnSharedInplace op rest stack =>
    exact .inl (settled_of_frames rfl rfl rfl (List.Subset.refl _) (fun _ => starts_of_rest [] stack (by simp)) fun _ => rfl)
  | returnReady side position finish e rest stack =>
    exact .inl (settled_of_frames rfl rfl rfl (List.Subset.refl _) (fun _ => starts_of_rest [_] stack (by simp [Frame.Starts]))
      fun x => by simp)
  | popShared stage position e rest stack free popped =>
    have queued : e ∈ s.shared.queue := List.mem_of_getElem? popped
    refine .inl (settled_of_frames rfl rfl rfl ?_
      (fun _ => starts_of_rest [_] stack (by simpa [Frame.Starts] using queued))
      fun x => by simp)
    intro x member
    rcases List.mem_append.mp member with back | front
    · exact List.mem_of_mem_drop back
    · exact List.mem_of_mem_take front
  | returnShared e rest stack =>
    exact .inl (settled_of_frames rfl rfl rfl (List.Subset.refl _) (fun _ => starts_of_rest [] stack (by simp))
      fun x => by simp)
  | cancelFailed e x op =>
    exact .inl (settled_of_frames rfl rfl rfl (List.Subset.refl _) (fun _ => .inl) fun x => by simp)
  | cancelRecv e x op held waits found handle =>
    exact .inl (settled_withdrawRecv op found)
  | cancelSharedFailed e op =>
    exact .inl (settled_of_frames rfl rfl rfl (List.Subset.refl _) (fun _ => .inl) fun x => by simp)
  | cancelShared e op =>
    refine .inl (settled_of_frames rfl rfl rfl List.erase_subset (fun _ => .inl) fun x => ?_)
    simp
  | cancelSharedThrew e =>
    exact .inl (settled_of_frames rfl rfl rfl (List.drop_subset _ _) (fun _ => .inl) fun _ => rfl)

theorem State.Typed.settled (typed : s.Typed) (settled : Settled s t) : t.Typed := by
  have kinds : ∀ e, t.requestKind e = s.requestKind e := fun e => by
    rw [requestKind, requestKind, settled.posts]
  constructor
  · intro side e member
    rw [kinds]
    exact typed.queued side e (settled.queue side member)
  · intro side e member
    rw [kinds]
    rcases settled.ready side e member with ready | queued
    · exact typed.readied side e ready
    · exact typed.queued side e queued
  · intro e member
    rw [kinds]
    exact typed.sharedQueued e (settled.shared member)
  · intro e member
    rw [kinds]
    rcases settled.frames _ member with old | starts
    · exact typed.sharedRuns e old
    · exact typed.sharedQueued e starts
  · intro op member
    rw [kinds, settled.posts]
    apply typed.inplaceRuns
    rcases member with member | member
    · rcases settled.frames _ member with old | starts
      · exact .inl old
      · exact starts.elim
    · rcases settled.frames _ member with old | starts
      · exact .inr old
      · exact starts.elim

theorem holdsRequest_iff {e : Nat} {kind : Kind} :
    s.holdsRequest kind e = true ↔ s.requestKind e = some kind := by
  unfold holdsRequest requestKind
  cases found : s.posts[e]? with
  | none => simp
  | some post => cases inplace : post.inplace <;> simp [inplace]

theorem requestKind_lt {e : Nat} {kind : Kind} (known : s.requestKind e = some kind) :
    e < s.posts.length := by
  obtain ⟨post, found, -⟩ := Option.bind_eq_some_iff.mp known
  exact (List.getElem?_eq_some_iff.mp found).1

theorem requestKind_append {e : Nat} {post : Post} (posts : t.posts = s.posts ++ [post])
    (inside : e < s.posts.length) : t.requestKind e = s.requestKind e := by
  rw [requestKind, requestKind, posts, List.getElem?_append_left inside]

theorem requestKind_new {post : Post} (posts : t.posts = s.posts ++ [post]) :
    t.requestKind s.posts.length = if post.inplace then none else some post.kind := by
  simp [requestKind, posts]

theorem create_posts (kind : Kind) (rank : RankType) (tag : TagType) :
    (s.create kind rank tag).posts =
      s.posts ++ [{ comm := 0, kind, rank, tag, inplace := false }] := by
  cases kind <;> rfl

theorem runInplace_posts (kind : Kind) (rank : RankType) (tag : TagType) :
    (s.runInplace kind rank tag).posts =
      s.posts ++ [{ comm := 0, kind, rank, tag, inplace := true }] := by
  cases kind <;> rfl

theorem State.Typed.create (typed : s.Typed) (kind : Kind) (rank : RankType) (tag : TagType) :
    (s.create kind rank tag).Typed := by
  have posts := create_posts (s := s) kind rank tag
  have kept : ∀ e known, s.requestKind e = some known →
      (s.create kind rank tag).requestKind e = some known := fun e known found => by
    rw [requestKind_append posts (requestKind_lt found), found]
  have new : (s.create kind rank tag).requestKind s.posts.length = some kind :=
    requestKind_new posts
  constructor
  · intro side e member
    have cases : e ∈ (s.reqs side).queue ∨ e = s.posts.length ∧ kind = side.kind := by
      cases kind <;> cases side <;>
        simp [State.create, enqueue, RequestQueue.enqueue, reqs, Side.kind] at member ⊢ <;>
        exact member
    rcases cases with old | ⟨rfl, rfl⟩
    · exact kept e _ (typed.queued side e old)
    · exact new
  · intro side e member
    have old : e ∈ (s.reqs side).readyQueue := by
      cases kind <;> cases side <;> exact member
    exact kept e _ (typed.readied side e old)
  · intro e member
    have cases : e ∈ s.shared.queue ∨ e = s.posts.length ∧ kind = .sharedRecv := by
      cases kind <;> simp [State.create, enqueue] at member ⊢ <;> exact member
    rcases cases with old | ⟨rfl, rfl⟩
    · exact kept e _ (typed.sharedQueued e old)
    · exact new
  · intro e member
    have old : Frame.shared e ∈ s.stack := by cases kind <;> exact member
    exact kept e _ (typed.sharedRuns e old)
  · intro op member
    have old : Frame.inplace op ∈ s.stack ∨ Frame.sharedInplace op ∈ s.stack := by
      cases kind <;> exact member
    obtain ⟨inside, unknown⟩ := typed.inplaceRuns op old
    rw [requestKind_append posts inside, posts, List.length_append]
    exact ⟨Nat.lt_add_right _ inside, unknown⟩

theorem State.Typed.runInplace (typed : s.Typed) (kind : Kind) (rank : RankType) (tag : TagType) :
    (s.runInplace kind rank tag).Typed := by
  have posts := runInplace_posts (s := s) kind rank tag
  have kept : ∀ e known, s.requestKind e = some known →
      (s.runInplace kind rank tag).requestKind e = some known := fun e known found => by
    rw [requestKind_append posts (requestKind_lt found), found]
  constructor
  · intro side e member
    have old : e ∈ (s.reqs side).queue := by cases kind <;> cases side <;> exact member
    exact kept e _ (typed.queued side e old)
  · intro side e member
    have old : e ∈ (s.reqs side).readyQueue := by cases kind <;> cases side <;> exact member
    exact kept e _ (typed.readied side e old)
  · intro e member
    have old : e ∈ s.shared.queue := by cases kind <;> exact member
    exact kept e _ (typed.sharedQueued e old)
  · intro e member
    have old : Frame.shared e ∈ s.stack := by
      cases kind <;> simpa [State.runInplace] using member
    exact kept e _ (typed.sharedRuns e old)
  · intro op member
    have cases : op = s.posts.length ∨ Frame.inplace op ∈ s.stack ∨
        Frame.sharedInplace op ∈ s.stack := by
      cases kind <;> simp [State.runInplace] at member ⊢ <;> tauto
    rw [posts, List.length_append]
    rcases cases with rfl | old
    · exact ⟨by simp, requestKind_new posts⟩
    · obtain ⟨inside, unknown⟩ := typed.inplaceRuns op old
      rw [requestKind_append posts inside]
      exact ⟨Nat.lt_add_right _ inside, unknown⟩

theorem State.Recorded.settled (recorded : s.Recorded) (settled : Settled s t) : t.Recorded := by
  intro e post found
  rw [settled.posts] at found
  rw [settled.identity]
  exact recorded e post found

theorem create_heap (kind : Kind) (rank : RankType) (tag : TagType) {x : Nat}
    (old : x ≠ s.posts.length) : (s.create kind rank tag).heap x = s.heap x := by
  cases kind <;> simp [State.create, enqueue, Heap.setIndex, old]

theorem State.Recorded.create (recorded : s.Recorded) (kind : Kind) (rank : RankType)
    (tag : TagType) : (s.create kind rank tag).Recorded := by
  intro e post found
  rw [create_posts] at found
  rcases concat_cases found with ⟨inside, old⟩ | ⟨rfl, rfl⟩
  · rw [create_heap kind rank tag (Nat.ne_of_lt inside)]
    exact recorded e post old
  · refine ⟨rfl, fun _ => ?_⟩
    cases kind <;> simp [State.create, enqueue, Heap.setIndex, RequestStateBase.identity,
      RequestStateBase.create]

theorem State.Recorded.runInplace (recorded : s.Recorded) (kind : Kind) (rank : RankType)
    (tag : TagType) : (s.runInplace kind rank tag).Recorded := by
  intro e post found
  rw [runInplace_posts] at found
  rcases concat_cases found with ⟨-, old⟩ | ⟨rfl, rfl⟩
  · have same : (s.runInplace kind rank tag).heap e = s.heap e := by cases kind <;> rfl
    rw [same]
    exact recorded e post old
  · exact ⟨rfl, nofun⟩

end Oomph.Mpi
