import Oomph.Mpi.Sound

namespace Oomph.Mpi

open Machine State

/-! A cancel is sane when it is made for a receive that is in `m_queue` with a handle, or
for one that is ready already.  In runs whose cancels are sane each step of the
communicator is at most one entry in the books, so the books are consistent: no
callback runs twice, no request is lost, and the counters are right.
-/

variable {limit : Nat} {s t : State} {action : Action} {e : Nat} {kind : Kind}

theorem keyOf_known (sound : s.Sound) (known : s.requestKind e = some kind) :
    Books.keyOf Post.counter s.posts e = some (kind.counter 0) := by
  obtain ⟨post, found, same, inplace, comm, -⟩ := sound.posted_of_known known
  simp [Books.keyOf, found, Post.counter, inplace, comm, same]

theorem keyOf_unknown (unknown : s.requestKind e = none) :
    Books.keyOf Post.counter s.posts e = none := by
  unfold requestKind at unknown
  cases found : s.posts[e]? with
  | none => simp [Books.keyOf, found]
  | some post =>
    have inplace : post.inplace = true := by simpa [found] using unknown
    simp [Books.keyOf, found, Post.counter, inplace]

theorem scheduled_known (sound : s.Sound) (known : s.requestKind e = some kind) :
    (s.heap e).scheduled = kind.counter 0 := by
  obtain ⟨post, -, -, -, -, identity⟩ := sound.posted_of_known known
  exact congrArg RequestStateBase.scheduled identity

theorem countDown_known (sound : s.Sound) (known : s.requestKind e = some kind) :
    countDown s.scheduled (s.heap e).scheduled =
      Books.adjust s.scheduled (-1) (Books.keyOf Post.counter s.posts e) := by
  rw [keyOf_known sound known, scheduled_known sound known]
  rfl

theorem effect_turn (sound : s.Sound) (sane : Sane s action) (effect : Effect limit s action t) :
    Turn s t :=
  (effect_cases sound effect).resolve_right fun stale => stale.1 sane

theorem Turn.entry (turn : Turn s t) (sound : s.Sound) :
    Relation.ReflGen (Books.Entry Post.counter) s.books t.books := by
  cases turn with
  | still posts waiting running history scheduled =>
    have same : t.books = s.books := by
      simp only [books, posts, waiting, running, history, scheduled]
    rw [same]
  | created kind rank tag equal =>
    subst t
    refine .single (.issue { comm := 0, kind, rank, tag, inplace := false }
      (create_posts kind rank tag) (waiting_create kind rank tag) (running_create kind rank tag)
      ?_ ?_ ?_ ?_) <;> cases kind <;> rfl
  | ranInplace kind rank tag equal =>
    subst t
    refine .single (.issueRunning { comm := 0, kind, rank, tag, inplace := true }
      (runInplace_posts kind rank tag) (waiting_runInplace kind rank tag)
      (running_runInplace kind rank tag) ?_ ?_ ?_ ?_) <;> cases kind <;> rfl
  | started e kind known posts waiting running history scheduled =>
    refine .single (.start e posts waiting running ?_ ?_ ?_ scheduled) <;>
      simp [books, history]
  | returned e kind known posts waiting running history scheduled =>
    refine .single (.finish e posts waiting running ?_ ?_ ?_
      (scheduled.trans (countDown_known sound known))) <;> simp [books, history]
  | returnedInplace op unknown posts waiting running history scheduled =>
    refine .single (.finish op posts waiting running ?_ ?_ ?_ ?_)
    · simp [books, history]
    · simp [books, history]
    · simp [books, history]
    · simp only [books, keyOf_unknown unknown, Books.adjust]
      exact scheduled
  | withdrawn e kind known posts waiting running history scheduled =>
    refine .single (.withdraw e posts waiting running ?_ ?_ ?_
      (scheduled.trans (countDown_known sound known))) <;> simp [books, history]

namespace State

def Fresh (s : State) : Prop :=
  ∀ e ∈ s.waiting, (s.heap e).life = (false, true)

def ReadyWhenDone (s : State) : Prop :=
  ∀ e kind, s.requestKind e = some kind →
    ((s.heap e).ready = true ↔
      e ∈ Event.returnedOps s.history ∨ e ∈ Event.canceledOps s.history)

def CalledAsPosted (s : State) : Prop :=
  ∀ op rank tag, Event.called op rank tag ∈ s.history →
    ∃ post, s.posts[op]? = some post ∧ post.rank = rank ∧ post.tag = tag

end State

theorem create_heap_new (kind : Kind) (rank : RankType) (tag : TagType) :
    ((s.create kind rank tag).heap s.posts.length).life = (false, true) := by
  cases kind <;> simp [State.create, enqueue, Heap.setIndex, RequestState.life,
    RequestStateBase.create]

theorem Turn.fresh (turn : Turn s t) (sound : s.Sound) (fresh : s.Fresh) : t.Fresh := by
  have distinct := Multiset.nodup_add.mp sound.distinct
  cases turn with
  | still posts waiting running history scheduled life =>
    intro x waits
    rw [life]
    exact fresh x (waiting ▸ waits)
  | created kind rank tag equal =>
    subst t
    intro x waits
    rw [waiting_create, Multiset.mem_cons] at waits
    by_cases new : x = s.posts.length
    · subst x
      exact create_heap_new kind rank tag
    · rw [create_heap kind rank tag new]
      exact fresh x (waits.resolve_left new)
  | ranInplace kind rank tag equal =>
    subst t
    intro x waits
    rw [waiting_runInplace] at waits
    have same : (s.runInplace kind rank tag).heap = s.heap := by cases kind <;> rfl
    rw [same]
    exact fresh x waits
  | started e kind known posts waiting running history scheduled ready life =>
    intro x waits
    have once := distinct.1
    rw [waiting, Multiset.nodup_cons] at once
    rw [life x fun same => once.1 (same ▸ waits)]
    exact fresh x (waiting ▸ Multiset.mem_cons_of_mem waits)
  | returned e kind known posts waiting running history scheduled ready life =>
    intro x waits
    rw [waiting] at waits
    have runs : e ∈ s.running := by
      rw [running]
      exact Multiset.mem_cons_self _ _
    rw [life x fun same => Multiset.disjoint_left.mp distinct.2.2 waits (same ▸ runs)]
    exact fresh x waits
  | returnedInplace op unknown posts waiting running history scheduled life =>
    intro x waits
    rw [life]
    exact fresh x (waiting ▸ waits)
  | withdrawn e kind known posts waiting running history scheduled ready life =>
    intro x waits
    have once := distinct.1
    rw [waiting, Multiset.nodup_cons] at once
    rw [life x fun same => once.1 (same ▸ waits)]
    exact fresh x (waiting ▸ Multiset.mem_cons_of_mem waits)

private theorem readyWhenDone_of_done {x : Nat} (done : s.ReadyWhenDone) (posts : t.posts = s.posts)
    (ready : (t.heap x).ready = true)
    (life : ∀ y, y ≠ x → (t.heap y).life = (s.heap y).life)
    (events : ∀ y, (y ∈ Event.returnedOps t.history ∨ y ∈ Event.canceledOps t.history) ↔
      y = x ∨ y ∈ Event.returnedOps s.history ∨ y ∈ Event.canceledOps s.history) :
    t.ReadyWhenDone := by
  intro y kind known
  rw [events]
  by_cases same : y = x
  · subst y
    simp [ready]
  · have before : s.requestKind y = some kind := by
      rw [requestKind, ← posts]
      exact known
    have flag : (t.heap y).ready = (s.heap y).ready := congrArg Prod.fst (life y same)
    rw [flag, done y kind before]
    simp [same]

private theorem readyWhenDone_of_same (done : s.ReadyWhenDone)
    (known : ∀ y kind, t.requestKind y = some kind → s.requestKind y = some kind)
    (ready : ∀ y, (t.heap y).ready = (s.heap y).ready)
    (events : ∀ y kind, s.requestKind y = some kind →
      (y ∈ Event.returnedOps t.history ∨ y ∈ Event.canceledOps t.history ↔
        y ∈ Event.returnedOps s.history ∨ y ∈ Event.canceledOps s.history)) :
    t.ReadyWhenDone := by
  intro y kind found
  have before := known y kind found
  rw [events y kind before, ready]
  exact done y kind before

theorem Turn.readyWhenDone (turn : Turn s t) (consistent : s.books.Consistent Post.counter)
    (done : s.ReadyWhenDone) : t.ReadyWhenDone := by
  have fresh : s.posts.length ∉ Event.returnedOps s.history ∧
      s.posts.length ∉ Event.canceledOps s.history := by
    constructor
    · intro member
      exact Nat.lt_irrefl _ (consistent.lt_of_called (consistent.called_of_returned member))
    · intro member
      exact Nat.lt_irrefl _ (consistent.mem_placed.mpr (.inr (.inr member)))
  cases turn with
  | still posts waiting running history scheduled life =>
    refine readyWhenDone_of_same done (fun y kind known => ?_)
      (fun y => congrArg Prod.fst (life y)) (fun y _ _ => by rw [history])
    rw [requestKind, ← posts]
    exact known
  | created kind rank tag equal =>
    subst t
    have history : (s.create kind rank tag).history = s.history := by cases kind <;> rfl
    intro y other known
    rw [history]
    by_cases new : y = s.posts.length
    · subst y
      have flag := congrArg Prod.fst (create_heap_new (s := s) kind rank tag)
      simp only [RequestState.life] at flag
      simp [flag, fresh]
    · rw [create_heap kind rank tag new]
      have inside : y < s.posts.length := by
        have bound := requestKind_lt known
        rw [create_posts, List.length_append, List.length_singleton] at bound
        omega
      rw [requestKind_append (create_posts kind rank tag) inside] at known
      exact done y other known
  | ranInplace kind rank tag equal =>
    subst t
    refine readyWhenDone_of_same done (fun y other known => ?_) (fun y => ?_) (fun y _ _ => ?_)
    · by_cases new : y = s.posts.length
      · subst y
        rw [requestKind_new (runInplace_posts kind rank tag)] at known
        cases known
      · have inside : y < s.posts.length := by
          have bound := requestKind_lt known
          rw [runInplace_posts, List.length_append, List.length_singleton] at bound
          omega
        rwa [requestKind_append (runInplace_posts kind rank tag) inside] at known
    · cases kind <;> rfl
    · cases kind <;> rfl
  | started e kind known posts waiting running history scheduled ready life =>
    refine readyWhenDone_of_same done (fun y other found => ?_) (fun y => ?_) (fun y _ _ => ?_)
    · rw [requestKind, ← posts]
      exact found
    · by_cases same : y = e
      · subst y
        exact ready
      · exact congrArg Prod.fst (life y same)
    · rw [history]
      rfl
  | returned e kind known posts waiting running history scheduled ready life =>
    refine readyWhenDone_of_done done posts ready life fun y => ?_
    simp [history, or_assoc]
  | returnedInplace op unknown posts waiting running history scheduled life =>
    refine readyWhenDone_of_same done (fun y other found => ?_)
      (fun y => congrArg Prod.fst (life y)) (fun y other found => ?_)
    · rw [requestKind, ← posts]
      exact found
    · have different : y ≠ op := by
        rintro rfl
        rw [unknown] at found
        cases found
      simp [history, different]
  | withdrawn e kind known posts waiting running history scheduled ready life =>
    refine readyWhenDone_of_done done posts ready life fun y => ?_
    simp only [history, Event.returnedOps, Event.canceledOps, Multiset.mem_cons]
    tauto

theorem posted_append {posts : List Post} {op : Nat} {rank : RankType} {tag : TagType} (new : Post)
    (known : ∃ post, posts[op]? = some post ∧ post.rank = rank ∧ post.tag = tag) :
    ∃ post, (posts ++ [new])[op]? = some post ∧ post.rank = rank ∧ post.tag = tag := by
  obtain ⟨post, found, same⟩ := known
  have inside := (List.getElem?_eq_some_iff.mp found).1
  exact ⟨post, by rw [List.getElem?_append_left inside, found], same⟩

theorem Turn.calledAsPosted (turn : Turn s t) (sound : s.Sound) (posted : s.CalledAsPosted) :
    t.CalledAsPosted := by
  intro op rank tag member
  cases turn with
  | still posts waiting running history =>
    rw [posts]
    exact posted op rank tag (history ▸ member)
  | created kind otherRank otherTag equal =>
    subst t
    have history : (s.create kind otherRank otherTag).history = s.history := by cases kind <;> rfl
    rw [history] at member
    rw [create_posts]
    exact posted_append _ (posted op rank tag member)
  | ranInplace kind otherRank otherTag equal =>
    subst t
    have history : (s.runInplace kind otherRank otherTag).history =
        .called s.posts.length otherRank otherTag :: s.history := by cases kind <;> rfl
    rw [history] at member
    rw [runInplace_posts]
    rcases List.mem_cons.mp member with new | old
    · cases new
      exact ⟨_, List.getElem?_concat_length, rfl, rfl⟩
    · exact posted_append _ (posted op rank tag old)
  | started e kind known posts waiting running history =>
    rw [posts]
    rw [history] at member
    rcases List.mem_cons.mp member with new | old
    · cases new
      obtain ⟨post, found, -, -, -, identity⟩ := sound.posted_of_known known
      exact ⟨post, found, (congrArg RequestStateBase.rank identity).symm,
        (congrArg RequestStateBase.tag identity).symm⟩
    · exact posted op rank tag old
  | returned e kind known posts waiting running history =>
    rw [history] at member
    rw [posts]
    exact posted op rank tag (by simpa using member)
  | returnedInplace e unknown posts waiting running history =>
    rw [history] at member
    rw [posts]
    exact posted op rank tag (by simpa using member)
  | withdrawn e kind known posts waiting running history =>
    rw [history] at member
    rw [posts]
    exact posted op rank tag (by simpa using member)

/-- MPI has completed what was called back and what a loop has still to call back.  Only
a shared receive may have been completed by a cancel that came too late. -/
structure State.Told (s : State) : Prop where
  called : ∀ op rank tag, Event.called op rank tag ∈ s.history →
    s.transport op = .reported ∨
      s.requestKind op = some .sharedRecv ∧ s.transport op = .waited
  unvisited : ∀ e ∈ s.unvisited, s.transport e = .reported

theorem unvisited_congr (sends : t.sends.readyQueue = s.sends.readyQueue)
    (recvs : t.recvs.readyQueue = s.recvs.readyQueue)
    (frames : total (Frame.unvisited s.readyQueues) t.stack =
      total (Frame.unvisited s.readyQueues) s.stack) : t.unvisited = s.unvisited := by
  have same : t.readyQueues = s.readyQueues := by
    funext side
    cases side
    · exact sends
    · exact recvs
  rw [State.unvisited, same, frames]
  rfl

theorem unvisited_cancel (waiting : t.waiting = s.waiting) (queued : t.queued = s.queued) :
    t.unvisited = s.unvisited := by
  unfold State.waiting at waiting
  rw [queued] at waiting
  exact add_left_cancel waiting

theorem effect_unvisited (sound : s.Sound) (effect : Effect limit s action t) :
    (∀ e ∈ t.unvisited, e ∈ s.unvisited) ∨
      ∃ stage next side rest positions, t = s.enterLoop side positions next rest ∧
        s.stack = .progress stage :: rest ∧ (s.reqs side).inProgress = false ∧
        Reportable s.transport (s.handles side) positions := by
  have same : ∀ {after : State}, after.unvisited = s.unvisited →
      ∀ e ∈ after.unvisited, e ∈ s.unvisited := fun equal e member => equal ▸ member
  cases effect with
  | compact stage next side rest positions stack free reported =>
    exact .inr ⟨stage, next, side, rest, positions, rfl, stack, free, reported⟩
  | create kind rank tag =>
    cases kind <;> exact .inl (same (unvisited_congr rfl rfl rfl))
  | runInplace kind rank tag =>
    cases kind <;> exact .inl (same (unvisited_congr rfl rfl (by simp [State.runInplace])))
  | call stage =>
    exact .inl (same (unvisited_congr rfl rfl (by simp)))
  | advance stage next rest answer stack =>
    exact .inl (same (unvisited_congr rfl rfl (by simp [stack])))
  | leave stage rest found stack =>
    exact .inl (same (unvisited_congr rfl rfl (by simp [stack])))
  | testFailed stage side rest stack free =>
    exact .inl (same (unvisited_cancel
      (waiting_clearReady [] stack sound.loops free (by simp)) (by cases side <;> rfl)))
  | testEmpty stage next side rest stack free =>
    exact .inl (same (unvisited_cancel
      (waiting_clearReady [.progress next] stack sound.loops free (by simp))
      (by cases side <;> rfl)))
  | loopEnd side position finish rest stack done =>
    exact .inl (same (unvisited_cancel (waiting_loopEnd stack sound.loops done)
      (by cases side <;> rfl)))
  | visit side position finish e rest stack more next =>
    have waiting := waiting_visit stack next
    refine .inl fun x member => ?_
    have queued : (s.startReady side position finish e rest).queued = s.queued := rfl
    unfold State.waiting at waiting
    rw [queued, ← Multiset.add_cons] at waiting
    rw [add_left_cancel waiting]
    exact Multiset.mem_cons_of_mem member
  | returnInplace op rest stack =>
    exact .inl (same (unvisited_congr rfl rfl (by simp [stack])))
  | returnSharedInplace op rest stack =>
    exact .inl (same (unvisited_congr rfl rfl (by simp [stack])))
  | returnReady side position finish e rest stack =>
    exact .inl (same (unvisited_congr rfl rfl (by simp [stack])))
  | popShared stage position e rest stack =>
    exact .inl (same (unvisited_congr rfl rfl (by simp [startShared, stack])))
  | returnShared e rest stack =>
    exact .inl (same (unvisited_congr rfl rfl (by simp [stack])))
  | cancelRecv e x op held waits found handle =>
    obtain ⟨heap, queue, equal, -⟩ := withdrawRecv_spec op found
    rw [equal]
    exact .inl (same (unvisited_congr rfl rfl rfl))
  | _ => exact .inl (same (unvisited_congr rfl rfl rfl))

/-- What MPI has told about an operation changes only while it is queued. -/
theorem effect_transport (sound : s.Sound) (effect : Effect limit s action t) {op : Nat}
    (old : op < s.posts.length) (absent : op ∉ s.queued) : t.transport op = s.transport op := by
  have queuedRecv : ∀ {i x : Nat}, s.recvs.queue[i]? = some x → x ∈ s.queued := fun found =>
    Sound.mem_queued.mpr (.inl ⟨.recvs, List.mem_of_getElem? found⟩)
  have other : ∀ {x handle : Nat}, x ∈ s.queued → (s.heap x).req = some handle → op ≠ handle := by
    intro x handle queued owns same
    rw [sound.handle_own queued owns] at same
    exact absent (same ▸ queued)
  cases effect with
  | create kind rank tag =>
    have different : op ≠ s.posts.length := Nat.ne_of_lt old
    cases kind <;> simp [State.create, enqueue, different]
  | runInplace kind rank tag =>
    have different : op ≠ s.posts.length := Nat.ne_of_lt old
    cases kind <;> simp [State.runInplace, different]
  | compact stage next side rest positions stack free reported =>
    have unreported : op ∉ reportedOps (s.handles side) positions := by
      intro listed
      obtain ⟨position, chosen, handle⟩ := List.mem_filterMap.mp listed
      have listed := Option.join_eq_some_iff.mp handle
      obtain ⟨x, found, owns⟩ := Option.map_eq_some_iff.mp (List.getElem?_map ▸ listed)
      have queued : x ∈ s.queued :=
        Sound.mem_queued.mpr (.inl ⟨side, List.mem_of_getElem? found⟩)
      exact other queued owns rfl
    exact if_neg unreported
  | popShared stage position e rest stack free popped =>
    have queued : e ∈ s.queued := Sound.mem_queued.mpr (.inr (List.mem_of_getElem? popped))
    cases handle : (s.heap e).req with
    | none => simp [startShared, releaseSelfRef, callCb, handle]
    | some x => simp [startShared, releaseSelfRef, callCb, handle, other queued handle]
  | cancelFailed e x handle held waits found owns =>
    simp [cancelHandle, other (queuedRecv found) owns]
  | cancelRecv e x handle held waits found owns =>
    obtain ⟨heap, queue, equal, -⟩ := withdrawRecv_spec handle found
    rw [equal]
    simp [setCanceled, releaseSelfRef, cancelHandle, other (queuedRecv found) owns]
  | cancelSharedFailed e handle held waits queued owns =>
    simp [cancelHandle, other (Sound.mem_queued.mpr (.inr queued)) owns]
  | cancelShared e handle held waits queued owns =>
    simp [withdrawShared, setCanceled, releaseSelfRef, cancelHandle,
      other (Sound.mem_queued.mpr (.inr queued)) owns]
  | testFailed stage side => simp
  | testEmpty stage next side => simp
  | loopEnd side => simp
  | _ => rfl

theorem effect_called (sound : s.Sound) (told : s.Told) (effect : Effect limit s action t)
    {op : Nat} {rank : RankType} {tag : TagType} (member : .called op rank tag ∈ t.history) :
    .called op rank tag ∈ s.history ∨ t.transport op = .reported ∨
      s.requestKind op = some .sharedRecv ∧ t.transport op = .waited := by
  cases effect with
  | create kind => cases kind <;> exact .inl member
  | runInplace kind otherRank otherTag =>
    have history : (s.runInplace kind otherRank otherTag).history =
        .called s.posts.length otherRank otherTag :: s.history := by cases kind <;> rfl
    rw [history] at member
    rcases List.mem_cons.mp member with new | old
    · cases new
      refine .inr (.inl ?_)
      cases kind <;> simp [State.runInplace]
    · exact .inl old
  | visit side position finish e rest stack more next =>
    have known := sound.typed.readied side e (List.mem_of_getElem? next)
    have history : (s.startReady side position finish e rest).history =
        .called e (s.heap e).rank (s.heap e).tag :: s.history := by
      simp [startReady, callCb, releaseSelfRef, sound.cb_of_known known]
    rw [history] at member
    rcases List.mem_cons.mp member with new | old
    · cases new
      exact .inr (.inl (told.unvisited op (unvisited_next stack next)))
    · exact .inl old
  | popShared stage position e rest stack free popped =>
    have known := sound.typed.sharedQueued e (List.mem_of_getElem? popped)
    have queued : e ∈ s.queued := Sound.mem_queued.mpr (.inr (List.mem_of_getElem? popped))
    have history : (s.startShared position e rest).history =
        .called e (s.heap e).rank (s.heap e).tag :: s.history := by
      simp [startShared, callCb, releaseSelfRef, sound.cb_of_known known]
    rw [history] at member
    rcases List.mem_cons.mp member with new | old
    · cases new
      rcases (sound.pending op queued).handle with ⟨handle, -⟩ | ⟨handle, waited⟩
      · exact .inr (.inl (by simp [startShared, releaseSelfRef, callCb, handle]))
      · refine .inr (.inr ⟨known, ?_⟩)
        simp [startShared, releaseSelfRef, callCb, handle, waited]
    · exact .inl old
  | returnInplace x rest => exact .inl (by simpa using member)
  | returnSharedInplace x rest => exact .inl (by simpa using member)
  | returnReady side position finish x rest => exact .inl (by simpa [finishCb] using member)
  | returnShared x rest => exact .inl (by simpa [finishCb] using member)
  | cancelRecv e x handle held waits found =>
    rw [withdrawRecv_history handle found (sound.cb_of_known (holdsRequest_iff.mp held))] at member
    exact .inl (by simpa using member)
  | cancelShared e handle held =>
    rw [withdrawShared_history handle (sound.cb_of_known (holdsRequest_iff.mp held))] at member
    exact .inl (by simpa using member)
  | compact stage next side => cases side <;> exact .inl member
  | testFailed stage side => cases side <;> exact .inl member
  | testEmpty stage next side => cases side <;> exact .inl member
  | loopEnd side => cases side <;> exact .inl member
  | _ => exact .inl member

theorem unvisited_enterLoop (loops : s.Loops) {stage : Stage} {side : Side} {rest : List Frame}
    (positions : List Nat) (next : Stage) (stack : s.stack = .progress stage :: rest)
    (free : (s.reqs side).inProgress = false) :
    (s.enterLoop side positions next rest).unvisited =
      ((s.compacted side positions).reqs side).readyQueue + s.unvisited := by
  have idle : ∀ frame ∈ rest, frame.side ≠ some side := fun frame member =>
    loops.idle free frame (by rw [stack]; exact List.mem_cons_of_mem _ member)
  have rests : total (Frame.unvisited (s.enterLoop side positions next rest).readyQueues) rest =
      total (Frame.unvisited s.readyQueues) rest := by
    refine total_unvisited_congr fun frame member other found => ?_
    have different : other ≠ side := fun same => idle frame member (same ▸ found)
    cases side <;> cases other <;> first | contradiction | rfl
  have before : s.unvisited = total (Frame.unvisited s.readyQueues) rest := by
    simp [State.unvisited, stack]
  rw [before, ← rests]
  cases side <;> simp [State.unvisited, enterLoop, State.readyQueues, reqs]

theorem State.Told.effect (told : s.Told) (sound : s.Sound) (quiet : s.Quiet)
    (effect : Effect limit s action t) : t.Told := by
  have kept : ∀ op, op < s.posts.length → op ∉ s.queued → t.transport op = s.transport op :=
    fun _ => effect_transport sound effect
  have kinds : ∀ op, op < s.posts.length → t.requestKind op = s.requestKind op := by
    intro op inside
    rcases effect_settled sound.queue_nodup sound.indexed effect with
      settled | ⟨kind, rank, tag, rfl | rfl⟩
    · rw [requestKind, requestKind, settled.posts]
    · exact requestKind_append (create_posts kind rank tag) inside
    · exact requestKind_append (runInplace_posts kind rank tag) inside
  have unvisitedKept : ∀ e ∈ s.unvisited, t.transport e = .reported := by
    intro e member
    have posted := sound.posted (Multiset.mem_add.mpr (.inl (Multiset.mem_add.mpr (.inr member))))
    rw [kept e posted (sound.not_queued_of_unvisited member)]
    exact told.unvisited e member
  constructor
  · intro op rank tag member
    rcases effect_called sound told effect member with old | reported | ⟨known, waited⟩
    · obtain ⟨absent, inside⟩ := quiet _ old
      rw [kept op inside absent, kinds op inside]
      exact told.called op rank tag old
    · exact .inl reported
    · rw [kinds op (requestKind_lt known)]
      exact .inr ⟨known, waited⟩
  · intro e member
    rcases effect_unvisited sound effect with
      fewer | ⟨stage, next, side, rest, positions, rfl, stack, free, reported⟩
    · exact unvisitedKept e (fewer e member)
    · rw [unvisited_enterLoop sound.loops positions next stack free] at member
      rcases Multiset.mem_add.mp member with new | old
      · have listed := (sound.mem_reportedOps reported).mpr (Multiset.mem_coe.mp new)
        exact if_pos listed
      · exact unvisitedKept e old

/-- A sane cancel cancels the operation of the request it marks. -/
theorem effect_canceled (sound : s.Sound) (quiet : s.Quiet) (sane : Sane s action)
    (effect : Effect limit s action t)
    (before : ∀ op ∈ Event.canceledOps s.history, s.transport op = .canceled) :
    ∀ op ∈ Event.canceledOps t.history, t.transport op = .canceled := by
  have old : ∀ op ∈ Event.canceledOps s.history, t.transport op = .canceled := by
    intro op member
    obtain ⟨absent, inside⟩ := quiet _ (Event.mem_canceledOps.mp member)
    exact (effect_transport sound effect inside absent).trans (before op member)
  intro op member
  cases effect with
  | create kind => cases kind <;> exact old op member
  | runInplace kind => cases kind <;> exact old op member
  | cancelRecv e x handle held waits found owns =>
    have own := found_own sound sane waits found
    subst x
    have queued : e ∈ s.queued := Sound.mem_queued.mpr (.inl ⟨.recvs, List.mem_of_getElem? found⟩)
    have same := sound.handle_own queued owns
    subst handle
    rw [withdrawRecv_history e found (sound.cb_of_known (holdsRequest_iff.mp held))] at member
    rcases Multiset.mem_cons.mp member with new | earlier
    · subst op
      obtain ⟨heap, queue, equal, -⟩ := withdrawRecv_spec e found
      rw [equal]
      simp [setCanceled, releaseSelfRef, cancelHandle]
    · exact old op earlier
  | cancelShared e handle held waits queued owns =>
    have same := sound.handle_own (Sound.mem_queued.mpr (.inr queued)) owns
    subst handle
    rw [withdrawShared_history e (sound.cb_of_known (holdsRequest_iff.mp held))] at member
    rcases Multiset.mem_cons.mp member with new | earlier
    · subst op
      simp [withdrawShared, setCanceled, releaseSelfRef, cancelHandle]
    · exact old op earlier
  | compact stage next side => cases side <;> exact old op member
  | testFailed stage side => cases side <;> exact old op member
  | testEmpty stage next side => cases side <;> exact old op member
  | loopEnd side => cases side <;> exact old op member
  | _ => exact old op member

structure State.Tracked (s : State) : Prop where
  sound : s.Sound
  quiet : s.Quiet
  consistent : s.books.Consistent Post.counter
  fresh : s.Fresh
  done : s.ReadyWhenDone
  posted : s.CalledAsPosted
  told : s.Told
  canceled : ∀ op ∈ Event.canceledOps s.history, s.transport op = .canceled

namespace State.Tracked

theorem start : State.initial.Tracked where
  sound := Sound.start
  quiet := nofun
  consistent := ⟨rfl, rfl, fun _ => rfl⟩
  fresh := nofun
  done _ _ known := by cases known
  posted := nofun
  told := ⟨nofun, nofun⟩
  canceled := nofun

theorem effect (tracked : s.Tracked) (sane : Sane s action) (effect : Effect limit s action t) :
    t.Tracked := by
  have turn := effect_turn tracked.sound sane effect
  exact {
    sound := tracked.sound.effect effect
    quiet := tracked.quiet.effect tracked.sound effect
    consistent := tracked.consistent.entries (turn.entry tracked.sound)
    fresh := turn.fresh tracked.sound tracked.fresh
    done := turn.readyWhenDone tracked.consistent tracked.done
    posted := turn.calledAsPosted tracked.sound tracked.posted
    told := tracked.told.effect tracked.sound tracked.quiet effect
    canceled := effect_canceled tracked.sound tracked.quiet sane effect tracked.canceled }

theorem along (tracked : s.Tracked) (continued : Reaches (Mpi.step limit) Sane s t) :
    t.Tracked :=
  Reaches.invariant Tracked tracked
    (fun _ _ _ holds sane taken => holds.effect sane (step_effect taken)) continued

theorem of_reaches (reached : Reaches (Mpi.step limit) Sane State.initial s) : s.Tracked :=
  start.along reached

/-- What MPI has reported is about to be called back or was. -/
theorem called_of_reported (tracked : s.Tracked) (posted : e < s.posts.length)
    (reported : s.transport e = .reported) :
    e ∈ s.unvisited ∨ e ∈ Event.calledOps s.history := by
  rcases tracked.consistent.mem_placed.mp posted with waits | called | canceled
  · rcases Multiset.mem_add.mp waits with queued | unvisited
    · rcases (tracked.sound.pending e queued).handle with ⟨-, active⟩ | ⟨-, waited⟩
      · rw [reported] at active
        cases active
      · rw [reported] at waited
        cases waited
    · exact .inl unvisited
  · exact .inr called
  · have told := tracked.canceled e canceled
    rw [reported] at told
    cases told

end State.Tracked

end Oomph.Mpi
