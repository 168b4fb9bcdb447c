import Oomph.Mpi.SharedQueue
import Oomph.Ledger
import Oomph.Machine.Run

namespace Oomph.Mpi.Shared

open Machine

namespace Frame

/-- The requests that a frame has taken from the queue, or has not pushed yet. -/
def waiting : Frame → Multiset Nat
  | .enqueue e => {e}
  | .pop localQueue => localQueue
  | .test e localQueue => {e} + localQueue
  | .pushBack localQueue found => found.toList + localQueue
  | .consume _ localQueue _ => localQueue
  | .cancel e localQueue _ => {e} + localQueue
  | .withdraw e localQueue => {e} + localQueue
  | .markReady _ localQueue => localQueue
  | .markCanceled _ localQueue => localQueue
  | .restore _ localQueue _ => localQueue
  | _ => 0

def running : Frame → Multiset Nat
  | .callback e => {e}
  | .countDown e => {e}
  | _ => 0

end Frame

attribute [simp] Frame.waiting Frame.running

namespace State

/-- The requests that are neither called back nor cancelled, with those that exceptions have
lost. -/
def waiting (lost : Multiset Nat) (s : State) : Multiset Nat :=
  (s.queue : Multiset Nat) + total (total Frame.waiting) s.threads + lost

def running (s : State) : Multiset Nat :=
  total (total Frame.running) s.threads

def books (lost : Multiset Nat) (s : State) : Books Post Counter where
  attrs := s.posts
  waiting := s.waiting lost
  running := s.running
  called := Event.calledOps s.history
  returned := Event.returnedOps s.history
  withdrawn := Event.canceledOps s.history
  outstanding := s.scheduled

def ledger (lost : Multiset Nat) (s : State) : Ledger Frame :=
  ⟨s.posts, s.threads, s.queue + lost, s.history, s.scheduled⟩

theorem books_eq (lost : Multiset Nat) (s : State) :
    s.books lost = (s.ledger lost).books Frame.waiting Frame.running := by
  rw [books, waiting, add_right_comm]
  rfl

end State

variable {s t : State} {thread : Nat} {stack moved rest : List Frame} {act : Act} {e : Nat}
  {lost : Multiset Nat}

private theorem books_pass (found : s.threads[thread]? = some stack)
    (threads : t.threads = s.threads.set thread moved)
    (waiting : (t.queue : Multiset Nat) + total Frame.waiting moved =
      s.queue + total Frame.waiting stack)
    (running : total Frame.running moved = total Frame.running stack)
    (posts : t.posts = s.posts) (history : t.history = s.history)
    (scheduled : t.scheduled = s.scheduled) : t.books lost = s.books lost := by
  rw [State.books_eq, State.books_eq]
  refine Ledger.books_same found threads posts scheduled history ?_ running
  change ↑t.queue + lost + _ = ↑s.queue + lost + _
  rw [add_right_comm, waiting, add_right_comm]

structure State.Made (s : State) : Prop where
  kind : ∀ post ∈ s.posts, post.kind = .sharedRecv ∧ post.comm = 0 ∧ post.inplace = false
  request : ∀ op post, s.posts[op]? = some post →
    (s.heap op).identity = RequestStateBase.create post.comm post.kind post.rank post.tag op

namespace State.Made

theorem initial (threads : Nat) : (State.initial threads).Made where
  kind _ member := by cases member
  request _ _ found := by cases found

theorem scheduled (made : s.Made) (known : e < s.posts.length) :
    (s.heap e).cb = e ∧ some (s.heap e).scheduled = Books.keyOf Post.counter s.posts e := by
  have found : s.posts[e]? = some s.posts[e] := List.getElem?_eq_getElem known
  have whole := made.request e _ found
  obtain ⟨kind, comm, kept⟩ := made.kind _ (List.getElem_mem known)
  have counter : (s.heap e).scheduled = (s.posts[e]).kind.counter (s.posts[e]).comm :=
    congrArg RequestStateBase.scheduled whole
  refine ⟨congrArg RequestStateBase.cb whole, ?_⟩
  simp [Books.keyOf, found, Post.counter, kept, counter]

private theorem update (made : s.Made) {request : RequestState} (posts : t.posts = s.posts)
    (heap : t.heap = Function.update s.heap e request)
    (identity : request.identity = (s.heap e).identity) : t.Made := by
  refine ⟨by rw [posts]; exact made.kind, fun op post found => ?_⟩
  rw [posts] at found
  rw [heap, attr_update (fun request : RequestState => request.identity) identity op]
  exact made.request op post found

private theorem same (made : s.Made) (posts : t.posts = s.posts) (heap : t.heap = s.heap) :
    t.Made := by
  refine ⟨by rw [posts]; exact made.kind, fun op post found => ?_⟩
  rw [posts] at found
  rw [heap]
  exact made.request op post found

theorem step (made : s.Made) (effect : Effect s thread act t) : t.Made := by
  cases effect with
  | post rank tag stack =>
    refine ⟨fun post member => ?_, fun op post found => ?_⟩
    · rcases List.mem_append.mp member with old | new
      · exact made.kind post old
      · cases List.mem_singleton.mp new
        exact ⟨rfl, rfl, rfl⟩
    · rcases concat_cases found with ⟨known, old⟩ | ⟨rfl, rfl⟩
      · simp only [State.setStack_heap, State.create_heap,
          Function.update_of_ne (Nat.ne_of_lt known)]
        exact made.request op post old
      · simp only [State.setStack_heap, State.create_heap, Function.update_self]
        rfl
  | found => exact made.update rfl rfl rfl
  | call => exact made.update rfl rfl rfl
  | setReady => exact made.update rfl rfl rfl
  | withdraw => exact made.update rfl rfl rfl
  | markReady => exact made.update rfl rfl rfl
  | markCanceled => exact made.update rfl rfl rfl
  | canceled => exact made.update rfl rfl rfl
  | tooLate => exact made.update rfl rfl rfl
  | _ => exact made.same rfl rfl

end State.Made

/-- No cancel throws: it finds a handle, or the build has `NDEBUG`. -/
def Handled (_ : State) (action : Action) : Prop :=
  action.act ≠ .refuse

instance (s : State) (action : Action) : Decidable (Handled s action) :=
  inferInstanceAs (Decidable (action.act ≠ .refuse))

private theorem countDown_eq (made : s.Made) (known : e < s.posts.length) :
    countDown s.scheduled (s.heap e).scheduled =
      Books.adjust s.scheduled (-1) (Books.keyOf Post.counter s.posts e) := by
  rw [← (made.scheduled known).2]
  rfl

private theorem entry_post (rank : RankType) (tag : TagType)
    (found : s.threads[thread]? = some stack) :
    Books.Entry Post.counter (s.books lost)
      (((s.create rank tag).setStack thread (.enqueue s.posts.length :: stack)).books lost) := by
  rw [State.books_eq, State.books_eq]
  refine Ledger.issue found rfl { comm := 0, kind := .sharedRecv, rank, tag, inplace := false } rfl
    rfl rfl ?_ (by simp)
  change ↑s.queue + lost + _ = {s.posts.length} + (↑s.queue + lost + _)
  rw [total_cons, Frame.waiting]
  abel

private theorem posted_of_frame {frame : Frame} (consistent : (s.books lost).Consistent Post.counter)
    (found : s.threads[thread]? = some (frame :: rest))
    (member : e ∈ frame.waiting ∨ e ∈ frame.running) : e < s.posts.length := by
  refine (consistent.mem_outstanding.mp ?_).1
  rcases member with waits | runs
  · refine Multiset.mem_add.mpr (.inl (Multiset.mem_add.mpr (.inl (Multiset.mem_add.mpr
      (.inr (mem_total.mpr ?_))))))
    exact ⟨_, List.mem_of_getElem? found, mem_total.mpr ⟨frame, List.mem_cons_self, waits⟩⟩
  · refine Multiset.mem_add.mpr (.inr (mem_total.mpr ?_))
    exact ⟨_, List.mem_of_getElem? found, mem_total.mpr ⟨frame, List.mem_cons_self, runs⟩⟩

private theorem entry_call (made : s.Made) (consistent : (s.books lost).Consistent Post.counter)
    (found : s.threads[thread]? = some (.pushBack [] (some e) :: rest)) :
    Books.Entry Post.counter (s.books lost)
      ((((s.releaseSelfRef e).callCb e).setStack thread (.callback e :: rest)).books lost) := by
  have known : e < s.posts.length := posted_of_frame consistent found (.inl (by simp))
  rw [State.books_eq, State.books_eq]
  refine Ledger.start found rfl e (s.heap e).rank (s.heap e).tag rfl rfl ?_ ?_ (by simp)
  · simp [State.ledger, State.callCb, State.releaseSelfRef, (made.scheduled known).1]
  · change ↑s.queue + lost + _ = {e} + (↑s.queue + lost + _)
    simp only [total_cons, Frame.waiting, Option.toList_some, Multiset.coe_singleton,
      Multiset.coe_nil]
    abel

private theorem entry_countDown (made : s.Made) (consistent : (s.books lost).Consistent Post.counter)
    (found : s.threads[thread]? = some (.countDown e :: rest)) :
    Books.Entry Post.counter (s.books lost) (((s.countDownCb e
      (.returned (s.heap e).cb)).setStack thread (.setReady e :: rest)).books lost) := by
  have known : e < s.posts.length := posted_of_frame consistent found (.inr (by simp))
  rw [State.books_eq, State.books_eq]
  refine Ledger.finish found rfl e rfl (countDown_eq made known) ?_ (congrArg₂ _ rfl (by simp))
    (by simp)
  simp [State.ledger, (made.scheduled known).1]

private theorem entry_withdraw {localQueue : List Nat} (made : s.Made)
    (consistent : (s.books lost).Consistent Post.counter)
    (found : s.threads[thread]? = some (.withdraw e localQueue :: rest)) :
    Books.Entry Post.counter (s.books lost) ((((s.releaseSelfRef e).countDownCb e
      (.canceled (s.heap e).cb)).setStack thread (.markReady e localQueue :: rest)).books lost) := by
  have known : e < s.posts.length := posted_of_frame consistent found (.inl (by simp))
  rw [State.books_eq, State.books_eq]
  refine Ledger.withdraw found rfl e rfl ?_ ?_ ?_ (by simp)
  · simpa [State.ledger, State.releaseSelfRef] using countDown_eq made known
  · simp [State.ledger, (made.scheduled known).1]
  · change ↑s.queue + lost + _ = {e} + (↑s.queue + lost + _)
    simp only [total_cons, Frame.waiting]
    abel

private theorem books_threw {localQueue : List Nat} {canceled : Bool}
    (found : s.threads[thread]? = some (.cancel e localQueue canceled :: rest)) :
    (((s.setStranded thread localQueue).returnCancel e .threw).setStack thread rest).books
      ({e} + localQueue + lost) = s.books lost := by
  rw [State.books_eq, State.books_eq]
  refine Ledger.books_same found rfl rfl rfl rfl ?_ (by simp)
  change ↑s.queue + ({e} + ↑localQueue + lost) + _ = ↑s.queue + lost + _
  rw [total_cons, Frame.waiting]
  abel

/-- Every step is at most one entry; only a cancel that throws loses requests. -/
theorem effect_entry (made : s.Made) (consistent : (s.books lost).Consistent Post.counter)
    (effect : Effect s thread act t) :
    ∃ gone, Relation.ReflGen (Books.Entry Post.counter) (s.books lost) (t.books gone) ∧
      (Handled s ⟨thread, act⟩ → gone = lost) := by
  have pass {u : State} {stack moved : List Frame} (found : s.threads[thread]? = some stack)
      (threads : u.threads = s.threads.set thread moved)
      (waiting : (u.queue : Multiset Nat) + total Frame.waiting moved =
        s.queue + total Frame.waiting stack)
      (running : total Frame.running moved = total Frame.running stack)
      (posts : u.posts = s.posts) (history : u.history = s.history)
      (scheduled : u.scheduled = s.scheduled) :
      ∃ gone, Relation.ReflGen (Books.Entry Post.counter) (s.books lost) (u.books gone) ∧
        (Handled s ⟨thread, act⟩ → gone = lost) := by
    refine ⟨lost, ?_, fun _ => rfl⟩
    rw [books_pass found threads waiting running posts history scheduled]
  cases effect with
  | post rank tag stack found => exact ⟨lost, .single (entry_post rank tag found), fun _ => rfl⟩
  | progress stack found => exact pass found rfl (by simp) (by simp) rfl rfl rfl
  | late => exact ⟨lost, .refl, fun _ => rfl⟩
  | startCancel e stack found => exact pass found rfl (by simp) (by simp) rfl rfl rfl
  | callbackReturns e rest found => exact pass found rfl (by simp) (by simp) rfl rfl rfl
  | complete => exact ⟨lost, .refl, fun _ => rfl⟩
  | enqueue e rest found =>
    refine pass found rfl ?_ (by simp) rfl rfl rfl
    simp only [State.setStack_queue, State.push_queue, ← Multiset.coe_add, total_cons,
      Frame.waiting, Multiset.coe_singleton]
    abel
  | nested rest found => exact pass found rfl (by simp) (by simp) rfl rfl rfl
  | enter rest found => exact pass found rfl (by simp) (by simp) rfl rfl rfl
  | drained localQueue rest found => exact pass found rfl (by simp) (by simp) rfl rfl rfl
  | pop e queue localQueue rest found whole =>
    refine pass found rfl ?_ (by simp) rfl rfl rfl
    simp only [State.setStack_queue, State.setQueue_queue, whole, total_cons, Frame.waiting,
      ← Multiset.cons_coe, ← Multiset.singleton_add]
    abel
  | found e localQueue rest found => exact pass found rfl (by simp) (by simp) rfl rfl rfl
  | pending e localQueue rest found =>
    refine pass found rfl ?_ (by simp) rfl rfl rfl
    simp only [State.setStack_queue, total_cons, Frame.waiting, ← Multiset.coe_add,
      Multiset.coe_singleton]
    abel
  | pushBack x localQueue other rest found =>
    refine pass found rfl ?_ (by simp) rfl rfl rfl
    simp only [State.setStack_queue, State.push_queue, total_cons, Frame.waiting,
      ← Multiset.coe_add, ← Multiset.cons_coe, ← Multiset.singleton_add, Multiset.coe_nil]
    abel
  | nothing rest found => exact pass found rfl (by simp) (by simp) rfl rfl rfl
  | call e rest found =>
    exact ⟨lost, .single (entry_call made consistent found), fun _ => rfl⟩
  | countDown e rest found =>
    exact ⟨lost, .single (entry_countDown made consistent found), fun _ => rfl⟩
  | setReady e rest found => exact pass found rfl (by simp) (by simp) rfl rfl rfl
  | consumed e localQueue canceled rest found =>
    exact pass found rfl (by simp) (by simp) rfl rfl rfl
  | reach e queue localQueue canceled rest found whole =>
    refine pass found rfl ?_ (by simp) rfl rfl rfl
    simp only [State.setStack_queue, State.setQueue_queue, whole, total_cons, Frame.waiting,
      ← Multiset.cons_coe, ← Multiset.singleton_add]
    abel
  | consume e x queue localQueue canceled rest found whole =>
    refine pass found rfl ?_ (by simp) rfl rfl rfl
    simp only [State.setStack_queue, State.setQueue_queue, whole, total_cons, Frame.waiting,
      ← Multiset.cons_coe, ← Multiset.singleton_add, ← Multiset.coe_add, Multiset.coe_nil]
    abel
  | withdraw e localQueue rest found =>
    exact ⟨lost, .single (entry_withdraw made consistent found), fun _ => rfl⟩
  | markReady e localQueue rest found => exact pass found rfl (by simp) (by simp) rfl rfl rfl
  | markCanceled e localQueue rest found => exact pass found rfl (by simp) (by simp) rfl rfl rfl
  | restore e x localQueue canceled rest found =>
    refine pass found rfl ?_ (by simp) rfl rfl rfl
    simp only [State.setStack_queue, State.push_queue, total_cons, Frame.waiting,
      ← Multiset.coe_add, ← Multiset.cons_coe, ← Multiset.singleton_add, Multiset.coe_nil]
    abel
  | returns e canceled rest found => exact pass found rfl (by simp) (by simp) rfl rfl rfl
  | threw e localQueue canceled rest found =>
    exact ⟨{e} + localQueue + lost, by rw [books_threw found], fun handled => absurd rfl handled⟩
  | ignored e localQueue canceled rest found =>
    refine pass found rfl ?_ (by simp) rfl rfl rfl
    simp only [State.setStack_queue, total_cons, Frame.waiting, ← Multiset.coe_add,
      Multiset.coe_singleton]
    abel
  | canceled e op localQueue canceled rest found =>
    exact pass found rfl (by simp) (by simp) rfl rfl rfl
  | tooLate e op localQueue canceled rest found =>
    refine pass found rfl ?_ (by simp) rfl rfl rfl
    simp only [State.setStack_queue, State.setComplete_queue, State.nullify_queue, total_cons,
      Frame.waiting, ← Multiset.coe_add, Multiset.coe_singleton]
    abel

def Frame.Told (history : List Event) : Frame → Prop
  | .callback e => e ∈ Event.calledOps history
  | .countDown e => e ∈ Event.calledOps history
  | .setReady e => e ∈ Event.calledOps history
  | .consume e _ true => e ∈ Event.canceledOps history
  | .cancel e _ true => e ∈ Event.canceledOps history
  | .markReady e _ => e ∈ Event.canceledOps history
  | .markCanceled e _ => e ∈ Event.canceledOps history
  | .restore e _ true => e ∈ Event.canceledOps history
  | _ => True

theorem Frame.Told.cons {history : List Event} {frame : Frame} (told : frame.Told history)
    (event : Event) : frame.Told (event :: history) := by
  have called {e : Nat} (old : e ∈ Event.calledOps history) :
      e ∈ Event.calledOps (event :: history) := by
    cases event <;> simp [old]
  have canceled {e : Nat} (old : e ∈ Event.canceledOps history) :
      e ∈ Event.canceledOps (event :: history) := by
    cases event <;> simp [old]
  unfold Told at told ⊢
  split at told <;> first | exact called told | exact canceled told | trivial

/-- A cancel that returns true, or will, has withdrawn its request. -/
structure State.Told (s : State) : Prop where
  frames : ∀ stack ∈ s.threads, ∀ frame ∈ stack, frame.Told s.history
  results : ∀ e, (e, CancelResult.returned true) ∈ s.results → e ∈ Event.canceledOps s.history

namespace State.Told

theorem initial (threads : Nat) : (State.initial threads).Told where
  frames stack member frame inside := by
    rw [List.eq_of_mem_replicate member] at inside
    cases inside
  results _ member := by cases member

private theorem frames_move (told : s.Told) (top moved : List Frame)
    (found : s.threads[thread]? = some (top ++ rest))
    (threads : t.threads = s.threads.set thread (moved ++ rest))
    (kept : ∀ frame : Frame, frame.Told s.history → frame.Told t.history)
    (new : (∀ frame ∈ top, frame.Told s.history) → ∀ frame ∈ moved, frame.Told t.history) :
    ∀ stack ∈ t.threads, ∀ frame ∈ stack, frame.Told t.history := by
  intro stack member frame inside
  rw [threads] at member
  have here := told.frames _ (List.mem_of_getElem? found)
  rcases List.mem_or_eq_of_mem_set member with old | rfl
  · exact kept frame (told.frames stack old frame inside)
  · rcases List.mem_append.mp inside with fresh | under
    · exact new (fun frame above => here frame (List.mem_append_left _ above)) frame fresh
    · exact kept frame (here frame (List.mem_append_right _ under))

private theorem pass (told : s.Told) (top moved : List Frame)
    (found : s.threads[thread]? = some (top ++ rest))
    (threads : t.threads = s.threads.set thread (moved ++ rest)) (history : t.history = s.history)
    (results : t.results = s.results)
    (new : (∀ frame ∈ top, frame.Told s.history) → ∀ frame ∈ moved, frame.Told s.history) :
    t.Told := by
  refine ⟨told.frames_move top moved found threads (fun frame old => by rwa [history])
    (fun above => by rw [history]; exact new above), fun e member => ?_⟩
  rw [results] at member
  rw [history]
  exact told.results e member

private theorem log (told : s.Told) (event : Event) (top moved : List Frame)
    (found : s.threads[thread]? = some (top ++ rest))
    (threads : t.threads = s.threads.set thread (moved ++ rest))
    (history : t.history = event :: s.history) (results : t.results = s.results)
    (new : (∀ frame ∈ top, frame.Told s.history) → ∀ frame ∈ moved,
      frame.Told (event :: s.history)) : t.Told := by
  refine ⟨told.frames_move top moved found threads
    (fun frame old => by rw [history]; exact old.cons event)
    (fun above => by rw [history]; exact new above), fun e member => ?_⟩
  rw [results] at member
  rw [history]
  have old := told.results e member
  cases event <;> simp [old]

theorem step (made : s.Made) (consistent : (s.books lost).Consistent Post.counter)
    (told : s.Told) (effect : Effect s thread act t) : t.Told := by
  cases effect with
  | post rank tag stack found => exact told.pass [] [_] found rfl rfl rfl (by simp [Frame.Told])
  | progress stack found => exact told.pass [] [_] found rfl rfl rfl (by simp [Frame.Told])
  | late e stack found =>
    refine ⟨told.frames, fun other member => told.results other ?_⟩
    simpa using member
  | startCancel e stack found => exact told.pass [] [_] found rfl rfl rfl (by simp [Frame.Told])
  | complete => exact ⟨told.frames, told.results⟩
  | enqueue e rest found => exact told.pass [_] [] found rfl rfl rfl (by simp)
  | nested rest found => exact told.pass [_] [] found rfl rfl rfl (by simp)
  | nothing rest found => exact told.pass [_] [] found rfl rfl rfl (by simp)
  | setReady e rest found => exact told.pass [_] [] found rfl rfl rfl (by simp)
  | call e rest found =>
    have known : e < s.posts.length := posted_of_frame consistent found (.inl (by simp))
    refine told.log _ [_] [_] found rfl rfl rfl fun _ => ?_
    simp [Frame.Told, State.releaseSelfRef, (made.scheduled known).1]
  | countDown e rest found =>
    exact told.log _ [_] [_] found rfl rfl rfl (by simp [Frame.Told])
  | withdraw e localQueue rest found =>
    have known : e < s.posts.length := posted_of_frame consistent found (.inl (by simp))
    refine told.log _ [_] [_] found rfl rfl rfl fun _ => ?_
    simp [Frame.Told, (made.scheduled known).1]
  | consumed e localQueue canceled rest found =>
    refine told.pass [_] [_] found rfl rfl rfl ?_
    cases canceled <;> simp [Frame.Told]
  | reach e queue localQueue canceled rest found =>
    refine told.pass [_] [_] found rfl rfl rfl ?_
    cases canceled <;> simp [Frame.Told]
  | consume e x queue localQueue canceled rest found =>
    refine told.pass [_] [_] found rfl rfl rfl ?_
    cases canceled <;> simp [Frame.Told]
  | restore e x localQueue canceled rest found =>
    refine told.pass [_] [_] found rfl rfl rfl ?_
    cases canceled <;> simp [Frame.Told]
  | tooLate e op localQueue canceled rest found =>
    refine told.pass [_] [_] found rfl rfl rfl ?_
    cases canceled <;> simp [Frame.Told]
  | ignored e localQueue canceled rest found =>
    refine told.pass [_] [_] found rfl rfl rfl ?_
    cases canceled <;> simp [Frame.Told]
  | returns e canceled rest found =>
    have kept : (s.setStack thread rest).Told := told.pass [_] [] found rfl rfl rfl (by simp)
    refine ⟨kept.frames, fun other member => ?_⟩
    rcases List.mem_cons.mp member with new | old
    · obtain ⟨rfl, rfl⟩ : other = e ∧ canceled = true := by simpa [eq_comm] using new
      exact told.frames _ (List.mem_of_getElem? found) _ List.mem_cons_self
    · exact told.results other old
  | threw e localQueue canceled rest found =>
    have kept : (s.setStack thread rest).Told := told.pass [_] [] found rfl rfl rfl (by simp)
    refine ⟨kept.frames, fun other member => told.results other ?_⟩
    simpa using member
  | _ => exact told.pass [_] [_] ‹_› rfl rfl rfl (by simp [Frame.Told])

end State.Told

def Frame.busy : Frame → Bool
  | .pop _ => true
  | .test _ _ => true
  | .pushBack _ _ => true
  | .callback _ => true
  | .countDown _ => true
  | .setReady _ => true
  | _ => false

def State.Busy (s : State) : Prop :=
  ∀ i stack, s.threads[i]? = some stack → s.inProgress i = true → ∃ frame ∈ stack, frame.busy = true

namespace State.Busy

theorem initial (threads : Nat) : (State.initial threads).Busy := fun _ _ _ busy => by cases busy

private theorem move (held : s.Busy) (found : s.threads[thread]? = some stack)
    (threads : t.threads = s.threads.set thread moved)
    (others : ∀ i, i ≠ thread → t.inProgress i = s.inProgress i)
    (mine : t.inProgress thread = true → ∃ frame ∈ moved, frame.busy = true) : t.Busy := by
  intro i other here busy
  rw [threads] at here
  by_cases same : i = thread
  · subst same
    rw [List.getElem?_set_self (List.getElem?_eq_some_iff.mp found).1] at here
    cases here
    exact mine busy
  · rw [List.getElem?_set_ne (Ne.symm same)] at here
    rw [others i same] at busy
    exact held i other here busy

private theorem pass (held : s.Busy) (top moved : List Frame)
    (found : s.threads[thread]? = some (top ++ rest))
    (threads : t.threads = s.threads.set thread (moved ++ rest))
    (flags : t.inProgress = s.inProgress)
    (kept : ∀ frame ∈ top, frame.busy = true → ∃ new ∈ moved, new.busy = true) : t.Busy := by
  refine held.move found threads (fun i _ => by rw [flags]) fun busy => ?_
  rw [flags] at busy
  obtain ⟨frame, member, busy⟩ := held thread _ found busy
  rcases List.mem_append.mp member with above | under
  · obtain ⟨new, inside, busy⟩ := kept frame above busy
    exact ⟨new, List.mem_append_left _ inside, busy⟩
  · exact ⟨frame, List.mem_append_right _ under, busy⟩

private theorem leave (held : s.Busy) (found : s.threads[thread]? = some stack)
    (threads : t.threads = s.threads.set thread moved)
    (flags : t.inProgress = Function.update s.inProgress thread false) : t.Busy := by
  refine held.move found threads (fun i other => by rw [flags, Function.update_of_ne other]) ?_
  rw [flags, Function.update_self]
  nofun

theorem step (held : s.Busy) (effect : Effect s thread act t) : t.Busy := by
  cases effect with
  | post rank tag stack found => exact held.pass [] [_] found rfl rfl (by simp)
  | progress stack found => exact held.pass [] [_] found rfl rfl (by simp)
  | late => exact held
  | startCancel e stack found => exact held.pass [] [_] found rfl rfl (by simp)
  | complete => exact held
  | enter rest found =>
    refine held.move found rfl (fun i other => Function.update_of_ne other _ _) fun _ => ?_
    exact ⟨_, List.mem_cons_self, rfl⟩
  | nothing rest found => exact held.leave found rfl rfl
  | setReady e rest found => exact held.leave found rfl rfl
  | enqueue e rest found => exact held.pass [_] [] found rfl rfl (by simp [Frame.busy])
  | nested rest found => exact held.pass [_] [] found rfl rfl (by simp [Frame.busy])
  | returns e canceled rest found => exact held.pass [_] [] found rfl rfl (by simp [Frame.busy])
  | threw e localQueue canceled rest found =>
    exact held.pass [_] [] found rfl rfl (by simp [Frame.busy])
  | _ => exact held.pass [_] [_] ‹_› rfl rfl (by simp [Frame.busy])

end State.Busy

end Oomph.Mpi.Shared
