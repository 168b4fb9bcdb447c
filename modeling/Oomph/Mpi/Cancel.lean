import Oomph.Mpi.Tracking

namespace Oomph.Mpi

open Machine State

/-! `request_queue::cancel` finds the request by its `m_index`.  A request that `progress`
has moved to `m_ready_queue` keeps the index it had, although it is not ready before its
callback has returned, so a cancel made for it hits whatever is at that index now.
-/

variable {limit : Nat} {s t : State} {action : Action} {e : Nat}

def OthersUntouched (s t : State) (e : Nat) : Prop :=
  t.sends = s.sends ∧ t.recvs = s.recvs ∧ t.shared = s.shared ∧ t.stack = s.stack ∧
    t.scheduled = s.scheduled ∧ t.history = s.history ∧
    ∀ x, x ≠ e → t.heap x = s.heap x ∧ t.transport x = s.transport x

/-- The cancel of `e` in state `s` has led to `after`: MPI cancelled the operation of `e`
and no other; whatever follows, `e` is never called back and is counted down once, and
every other request that was pending is still tracked until it is called back, at most
once, and once when MPI has reported it and no loop has still to visit it. -/
def ProperlyCanceled (limit : Nat) (s after : State) (e : Nat) : Prop :=
  after.transport = Function.update s.transport e .canceled ∧
  after.scheduled = countDown s.scheduled (.recvs 0) ∧
  ∀ t, Reaches (step limit) Sane after t →
    (Event.calledOps t.history).count e = (Event.calledOps s.history).count e ∧
    (Event.returnedOps t.history).count e + (Event.canceledOps t.history).count e = 1 ∧
    ∀ x ∈ s.waiting + s.running, x ≠ e →
      (x ∈ t.waiting + t.running ∨ x ∈ Event.returnedOps t.history ∨
        x ∈ Event.canceledOps t.history) ∧
      (Event.calledOps t.history).count x ≤ 1 ∧
      (t.transport x = .reported →
        x ∈ t.unvisited ∨ (Event.calledOps t.history).count x = 1)

/-- What `cancel` of the receive `e` promises, whatever MPI answers. -/
def CancelLaw (limit : Nat) (s : State) (e : Nat) : Prop :=
  ∀ flag,
    (s.cancelRecv e flag).2 = .returned false ∧ OthersUntouched s (s.cancelRecv e flag).1 e ∨
    (s.cancelRecv e flag).2 = .returned true ∧
      ProperlyCanceled limit s (s.cancelRecv e flag).1 e

theorem Cancellable.queued (cancellable : Cancellable s e) : e ∈ s.queued :=
  Sound.mem_queued.mpr (.inl ⟨.recvs, cancellable.1⟩)

theorem Cancellable.handle (cancellable : Cancellable s e) (sound : s.Sound) :
    (s.heap e).req = some e := by
  rcases (sound.pending e cancellable.queued).handle with ⟨handle, -⟩ | ⟨null, -⟩
  · exact handle
  · exact absurd null cancellable.2

theorem Cancellable.outcome (cancellable : Cancellable s e) (sound : s.Sound) (flag : Bool) :
    s.cancelRecv e flag =
      if flag then (s.withdrawRecv e e e, .returned true)
      else (s.cancelHandle e e false, .returned false) := by
  have known := sound.typed.queued .recvs e cancellable.1
  have found := sound.queue_at_index known cancellable.queued
  have waits := (sound.pending e cancellable.queued).waits
  simp [cancelRecv, waits, found, cancellable.handle sound]

theorem history_grows {allowed : State → Action → Prop} (sound : s.Sound)
    (continued : Reaches (step limit) allowed s t) :
    t.Sound ∧ s.posts.length ≤ t.posts.length ∧ s.history <:+ t.history := by
  refine Reaches.invariant
    (fun t => t.Sound ∧ s.posts.length ≤ t.posts.length ∧ s.history <:+ t.history)
    ⟨sound, Nat.le_refl _, List.suffix_refl _⟩ ?_ continued
  intro before action after holds _ taken
  obtain ⟨sound, posts, history⟩ := holds
  have effect := step_effect taken
  obtain ⟨events, grown, -⟩ := effect_history sound effect
  refine ⟨sound.effect effect, Nat.le_trans posts ?_, ?_⟩
  · rcases effect_settled sound.queue_nodup sound.indexed effect with
      settled | ⟨kind, rank, tag, rfl | rfl⟩
    · rw [settled.posts]
    · rw [create_posts, List.length_append]
      exact Nat.le_add_right _ _
    · rw [runInplace_posts, List.length_append]
      exact Nat.le_add_right _ _
  · rw [grown]
    exact history.trans (List.suffix_append _ _)

/-- A receive that was withdrawn is done, once and for all. -/
theorem State.Tracked.counts_of_canceled (tracked : t.Tracked)
    (canceled : e ∈ Event.canceledOps t.history) :
    (Event.calledOps t.history).count e = 0 ∧ (Event.returnedOps t.history).count e = 0 ∧
      (Event.canceledOps t.history).count e = 1 := by
  have placed := tracked.consistent.placed_nodup
  have withdrawn : t.books.withdrawn.Nodup := (Multiset.nodup_add.mp placed).2.1
  have notCalled : e ∉ Event.calledOps t.history := fun called =>
    tracked.consistent.not_withdrawn_of_called called canceled
  have notReturned : e ∉ Event.returnedOps t.history := fun returned =>
    notCalled (tracked.consistent.called_of_returned returned)
  exact ⟨Multiset.count_eq_zero.mpr notCalled, Multiset.count_eq_zero.mpr notReturned,
    Multiset.count_eq_one_of_mem withdrawn canceled⟩

theorem State.Tracked.fate (tracked : t.Tracked) {x : Nat} (posted : x < t.posts.length) :
    (x ∈ t.waiting + t.running ∨ x ∈ Event.returnedOps t.history ∨
        x ∈ Event.canceledOps t.history) ∧
      (Event.calledOps t.history).count x ≤ 1 ∧
      (t.transport x = .reported →
        x ∈ t.unvisited ∨ (Event.calledOps t.history).count x = 1) := by
  have once : (Event.calledOps t.history).Nodup := tracked.consistent.called_nodup
  refine ⟨?_, Multiset.nodup_iff_count_le_one.mp once x, fun reported => ?_⟩
  · by_contra absent
    rw [not_or, not_or] at absent
    exact absent.1 (tracked.consistent.mem_outstanding.mpr ⟨posted, absent.2.1, absent.2.2⟩)
  · rcases tracked.called_of_reported posted reported with unvisited | called
    · exact .inl unvisited
    · exact .inr (Multiset.count_eq_one_of_mem once called)

theorem Cancellable.lawful (cancellable : Cancellable s e) (tracked : s.Tracked) :
    CancelLaw limit s e := by
  have sound := tracked.sound
  have known := sound.typed.queued .recvs e cancellable.1
  have found := sound.queue_at_index known cancellable.queued
  have waits := (sound.pending e cancellable.queued).waits
  have handle := cancellable.handle sound
  intro flag
  rw [cancellable.outcome sound]
  cases flag with
  | false =>
    refine .inl ⟨rfl, rfl, rfl, rfl, rfl, rfl, rfl, fun x different => ?_⟩
    simp [cancelHandle, different]
  | true =>
    have effect : Effect limit s (.cancel e true) (s.withdrawRecv e e e) :=
      .cancelRecv e e e (holdsRequest_iff.mpr known) waits found handle
    have sane : Sane s (.cancel e true) := Or.inr cancellable
    have after := tracked.effect sane effect
    have history := withdrawRecv_history e found (sound.cb_of_known known)
    have silent : e ∉ Event.calledOps s.history := fun called => by
      obtain ⟨rank, tag, event⟩ := Event.mem_calledOps.mp called
      exact (tracked.quiet _ event).1 cancellable.queued
    refine .inr ⟨rfl, ?_, ?_, fun t continued => ?_⟩
    · obtain ⟨heap, queue, equal, -⟩ := withdrawRecv_spec e found
      simp only [if_true, equal]
      rfl
    · rw [if_pos rfl]
      refine (withdrawRecv_scheduled e found).trans ?_
      rw [scheduled_known sound known]
      rfl
    · rw [if_pos rfl] at continued
      have later := after.along continued
      obtain ⟨-, posts, grown⟩ := history_grows after.sound continued
      have canceled : e ∈ Event.canceledOps t.history := by
        apply Event.mem_canceledOps.mpr
        apply grown.subset
        rw [history]
        exact List.mem_cons_self
      obtain ⟨called, returned, once⟩ := later.counts_of_canceled canceled
      refine ⟨?_, by omega, fun x member different => later.fate ?_⟩
      · rw [called, Multiset.count_eq_zero.mpr silent]
      · have same := (settled_withdrawRecv e found).posts
        have inside := sound.posted member
        rw [same] at posts
        omega

theorem not_lawful_of_not_cancellable (sound : s.Sound) (waits : (s.heap e).ready = false)
    (not : ¬ Cancellable s e) : ¬ CancelLaw limit s e := by
  intro law
  have outcome := law true
  cases found : s.recvs.queue[(s.heap e).index]? with
  | none => simp [cancelRecv, waits, found] at outcome
  | some x =>
    have member : x ∈ s.recvs.queue := List.mem_of_getElem? found
    have queued : x ∈ s.queued := Sound.mem_queued.mpr (.inl ⟨.recvs, member⟩)
    cases handle : (s.heap x).req with
    | none => simp [cancelRecv, waits, found, handle] at outcome
    | some op =>
      have own := sound.handle_own queued handle
      subst op
      have different : x ≠ e := by
        rintro rfl
        exact not ⟨member, by rw [handle]; exact nofun⟩
      have active : s.transport x = .active := by
        rcases (sound.pending x queued).handle with ⟨-, active⟩ | ⟨null, -⟩
        · exact active
        · rw [handle] at null
          cases null
      simp only [cancelRecv, waits, found, handle, Bool.false_eq_true, if_false, if_true,
        reduceCtorEq, CancelResult.returned.injEq, false_and, true_and, false_or] at outcome
      obtain ⟨transport, -⟩ := outcome
      obtain ⟨heap, queue, equal, -⟩ := withdrawRecv_spec x found
      rw [equal] at transport
      have clash := congrFun transport x
      simp [setCanceled, releaseSelfRef, cancelHandle, different, active] at clash

/-- A cancel keeps its promises exactly for the receives that are in the queue with a
handle: among those that are not ready, these are all but the ones `progress` has taken
out and those an earlier cancel has failed for. -/
theorem cancel_lawful_iff (limit : Nat) {s : State} {e : Nat}
    (reached : Reaches (step limit) Sane State.initial s) (waits : (s.heap e).ready = false) :
    CancelLaw limit s e ↔ Cancellable s e := by
  have tracked := Tracked.of_reaches reached
  constructor
  · intro law
    by_contra not
    exact not_lawful_of_not_cancellable tracked.sound waits not law
  · intro cancellable
    exact cancellable.lawful tracked

theorem cancel_lawful_after_post :
    CancelLaw 20 (State.initial.create .recv 1 7) 0 := by
  have reached : Reaches (step 20) Sane State.initial (State.initial.create .recv 1 7) :=
    .single ⟨.post .recv 1 7 .incomplete, trivial, rfl⟩
  exact (cancel_lawful_iff 20 reached (by decide)).mpr (by decide)

/-- Two receives are posted and the first has completed.  Inside its callback it is not
ready, and cancelling it cancels the second one, which no queue holds any more.  This is a build
with `NDEBUG`: otherwise the assertion of `release_self_ref` stops the process. -/
theorem cancel_in_own_callback :
    ∃ s, Reaches (step 20) Sane State.initial s ∧ s.holdsRequest .recv 0 = true ∧
      (s.heap 0).ready = false ∧ (s.cancelRecv 0 true).2 = .returned true ∧
      (s.cancelRecv 0 true).1.transport 1 = .canceled ∧ (s.cancelRecv 0 true).1.waiting = 0 ∧
      ¬ CancelLaw 20 s 0 := by
  obtain ⟨s, reached, held, waits, result, transport, waiting, stale⟩ := exists_of_run (step 20)
    Sane State.initial
    [.post .recv 1 7 .incomplete, .post .recv 1 8 .incomplete, .progress, .testsome (.done []),
      .testsome (.done [0]), .visit]
    (fun s => s.holdsRequest .recv 0 = true ∧ (s.heap 0).ready = false ∧
      (s.cancelRecv 0 true).2 = .returned true ∧ (s.cancelRecv 0 true).1.transport 1 = .canceled ∧
      (s.cancelRecv 0 true).1.waiting = 0 ∧ ¬ Cancellable s 0) (by decide)
  exact ⟨s, reached, held, waits, result, transport, waiting,
    not_lawful_of_not_cancellable (Sound.of_reaches reached) waits stale⟩

end Oomph.Mpi
