import Oomph.Answers
import Oomph.Mpi.Calls
import Oomph.Mpi.Tracking

namespace Oomph.Mpi

open Machine State

variable {limit : Nat} {s t : State} {action : Action} {e : Nat}

namespace State

def requests (s : State) (e : Nat) : RequestStateBase :=
  (s.heap e).toRequestStateBase

def marks (s : State) : Marks :=
  marksOf s.posts s.requests s.history

end State

theorem OnlyIndices.flags {before after : Heap} (only : OnlyIndices before after) (e : Nat) :
    (after e).flags = (before e).flags := by
  rw [only e]

private theorem flags_update {heap : Heap} {x : Nat} {request : RequestState}
    (same : request.flags = (heap x).flags) (e : Nat) :
    (Function.update heap x request e).flags = (heap e).flags :=
  attr_update (fun request : RequestState => request.flags) same e

private theorem marks_kept (posts : t.posts = s.posts)
    (flags : ∀ e, (t.heap e).flags = (s.heap e).flags)
    (called : ∀ e ∈ Event.calledOps s.history, e ∈ Event.calledOps t.history)
    (returned : Event.returnedOps t.history = Event.returnedOps s.history)
    (canceled : Event.canceledOps t.history = Event.canceledOps s.history) :
    Marks.Step s.marks t.marks := by
  rw [State.marks, State.marks, posts]
  exact marks_same flags called returned canceled

private theorem marks_unchanged (posts : t.posts = s.posts) (heap : t.heap = s.heap)
    (history : t.history = s.history) : Marks.Step s.marks t.marks :=
  marks_kept posts (fun _ => by rw [heap]) (fun _ => by rw [history]; exact id) (by rw [history])
    (by rw [history])

private theorem marks_inplace {frame : Frame} {rest : List Frame} (sound : s.Sound)
    (stack : s.stack = frame :: rest) (runs : frame = .inplace e ∨ frame = .sharedInplace e)
    (posts : t.posts = s.posts) (heap : t.heap = s.heap)
    (history : t.history = .returned e :: s.history) : Marks.Step s.marks t.marks := by
  obtain ⟨inside, unknown⟩ := sound.typed.inplaceRuns e
    (runs.imp (fun own => by simp [stack, own]) fun own => by simp [stack, own])
  have found := List.getElem?_eq_getElem inside
  have bare : s.posts[e].inplace = true := by
    by_contra request
    simp [State.requestKind, found, request] at unknown
  rw [State.marks, State.marks, posts, history]
  exact marks_return found bare fun _ => by rw [State.requests, heap, State.requests]

private theorem marks_finished {kind : Kind} (calling : s.Calling)
    (known : s.requestKind e = some kind) (runs : e ∈ s.running) (posts : t.posts = s.posts) (heap : t.heap = (s.finishCb e).heap)
    (history : t.history = (s.finishCb e).history) : Marks.Step s.marks t.marks := by
  have called : e ∈ Event.calledOps s.history := by
    rw [calling.fates]
    exact Multiset.mem_add.mpr (.inl runs)
  rw [State.marks, State.marks, posts, history, finishCb, calling.sound.cb_of_known known]
  refine marks_finish (requestKind_lt known) called ?_ fun x other => ?_
  · simp [State.requests, heap, finishCb, RequestStateBase.flags]
  · simp [State.requests, heap, finishCb, Function.update_of_ne other]

theorem effect_marks (calling : s.Calling) (effect : Effect limit s action t) :
    Marks.Step s.marks t.marks := by
  have sound := calling.sound
  cases effect with
  | create kind rank tag =>
    rw [State.marks, State.marks, create_posts]
    refine marks_post (fun _ => ?_) (by simp) (fun e other => ?_) (by cases kind <;> exact fun _ => id)
      (by cases kind <;> rfl) (by cases kind <;> rfl)
    · cases kind <;> simp [State.requests, create, State.enqueue, Heap.setIndex, RequestStateBase.flags,
        RequestStateBase.create]
    · exact congrArg RequestStateBase.flags
        (congrArg RequestState.toRequestStateBase (create_heap kind rank tag other))
  | runInplace kind rank tag =>
    rw [State.marks, State.marks, runInplace_posts]
    refine marks_post (by simp) (fun _ => ?_) (fun e _ => ?_) (fun e called => ?_) ?_ ?_
    · cases kind <;> exact Multiset.mem_cons_self _ _
    · cases kind <;> rfl
    · cases kind <;> exact Multiset.mem_cons_of_mem called
    · cases kind <;> rfl
    · cases kind <;> rfl
  | testFailed stage side => exact marks_unchanged (by simp) (by simp) (by simp)
  | testEmpty stage next side => exact marks_unchanged (by simp) (by simp) (by simp)
  | loopEnd side => exact marks_unchanged (by simp) (by simp) (by simp)
  | compact stage next side rest positions =>
    have only := (compact_heap positions (sound.queue_nodup side) (sound.indexed side)).1
    refine marks_kept (setReqs_posts _ _ _) only.flags ?_ ?_ ?_
    · cases side <;> exact fun _ => id
    · cases side <;> rfl
    · cases side <;> rfl
  | visit side position finish e =>
    exact marks_kept rfl (flags_update (by rfl)) (fun _ => Multiset.mem_cons_of_mem) rfl rfl
  | popShared stage position e =>
    exact marks_kept rfl (flags_update (by rfl)) (fun _ => Multiset.mem_cons_of_mem) rfl rfl
  | returnInplace op rest stack => exact marks_inplace sound stack (.inl rfl) rfl rfl rfl
  | returnSharedInplace op rest stack => exact marks_inplace sound stack (.inr rfl) rfl rfl rfl
  | returnReady side position finish e rest stack =>
    have looping := sound.loops.intact side position finish (some e) (by simp [stack])
    exact marks_finished calling
      (sound.typed.readied side e (List.mem_of_getElem? (looping.visiting e rfl)))
      (by simp [State.running, stack]) rfl rfl rfl
  | returnShared e rest stack =>
    exact marks_finished calling (sound.typed.sharedRuns e (by simp [stack]))
      (by simp [State.running, stack]) rfl rfl rfl
  | cancelFailed e x op => exact marks_kept rfl (flags_update (by rfl)) (fun _ => id) rfl rfl
  | cancelSharedFailed e op => exact marks_kept rfl (flags_update (by rfl)) (fun _ => id) rfl rfl
  | cancelRecv e x op held waits found =>
    have known := holdsRequest_iff.mp held
    rw [State.marks, State.marks, (settled_withdrawRecv op found).posts,
      withdrawRecv_history op found (sound.cb_of_known known)]
    obtain ⟨heap, queue, equal, -, only, -⟩ := withdrawRecv_spec op found
    refine marks_withdraw (requestKind_lt known) ?_ fun y other => ?_
    · rw [State.requests, equal]
      exact (only.flags e).trans (by simp [setCanceled, RequestStateBase.flags])
    · rw [State.requests, equal]
      refine (only.flags y).trans ?_
      simp only [setCanceled, Function.update_of_ne other, releaseSelfRef, cancelHandle]
      exact flags_update (by rfl) y
  | cancelShared e op held waits queued =>
    have known := holdsRequest_iff.mp held
    rw [State.marks, State.marks, show (s.withdrawShared e op).posts = s.posts from rfl,
      withdrawShared_history op (sound.cb_of_known known)]
    refine marks_withdraw (requestKind_lt known) ?_ fun y other => ?_
    · simp [State.requests, withdrawShared, setCanceled, RequestStateBase.flags]
    · simp [State.requests, withdrawShared, setCanceled, releaseSelfRef, cancelHandle,
        Function.update_of_ne other]
  | _ => exact marks_unchanged rfl rfl rfl

theorem marks_of_reaches {allowed : State → Action → Prop}
    (reached : Reaches (step limit) allowed State.initial s) : s.marks.Sound := by
  have both : s.Calling ∧ s.marks.Sound := by
    refine reached.invariant (fun s => s.Calling ∧ s.marks.Sound)
      ⟨.initial, ⟨nofun, nofun, nofun, nofun, nofun⟩⟩ ?_
    rintro before action after ⟨calling, marks⟩ _ taken
    have effect := step_effect taken
    exact ⟨calling.effect effect, marks.step (effect_marks calling effect)⟩
  exact both.2

/-- The results of cancels, of which the states keep no record. -/
def Action.results (s : State) : Action → List (Nat × CancelResult)
  | .cancel e flag => [(e, (s.cancelRecv e flag).2)]
  | .cancelShared e flag => [(e, (s.cancelShared e flag).2)]
  | _ => []

def Action.isCancel : Action → Bool
  | .cancel _ _ => true
  | .cancelShared _ _ => true
  | _ => false

theorem canceledOps_of_effect (effect : Effect limit s action t) (other : action.isCancel = false) :
    Event.canceledOps t.history = Event.canceledOps s.history := by
  cases effect with
  | create kind => cases kind <;> rfl
  | runInplace kind => cases kind <;> rfl
  | compact stage next side => cases side <;> rfl
  | cancelRecv => cases other
  | cancelShared => cases other
  | testFailed => simp
  | testEmpty => simp
  | loopEnd => simp
  | _ => rfl

theorem canceledOps_cancelRecv (own : (s.heap e).cb = e) (flag : Bool) :
    Event.canceledOps (s.cancelRecv e flag).1.history =
      opsAnswered (.returned true) [(e, (s.cancelRecv e flag).2)] + Event.canceledOps s.history := by
  unfold State.cancelRecv
  split
  · simp [opsAnswered]
  · split
    · simp [opsAnswered]
    · rename_i x found
      split
      · simp [opsAnswered]
      · rename_i op handle
        cases flag with
        | true => simp [withdrawRecv_history op found own]
        | false => simp [opsAnswered, cancelHandle]

theorem canceledOps_cancelShared (own : (s.heap e).cb = e) (flag : Bool) :
    Event.canceledOps (s.cancelShared e flag).1.history =
      opsAnswered (.returned true) [(e, (s.cancelShared e flag).2)] +
        Event.canceledOps s.history := by
  unfold State.cancelShared
  split
  · simp [opsAnswered]
  · split
    · split
      · simp [opsAnswered]
      · rename_i op handle
        cases flag with
        | true => simp [withdrawShared_history op own]
        | false => simp [opsAnswered, cancelHandle]
    · simp [opsAnswered]

theorem step_canceledOps (sound : s.Sound) (taken : step limit s action = some t) :
    Event.canceledOps t.history =
      opsAnswered (.returned true) (action.results s) + Event.canceledOps s.history := by
  have other (kept : action.isCancel = false) (silent : action.results s = []) :
      Event.canceledOps t.history =
        opsAnswered (.returned true) (action.results s) + Event.canceledOps s.history := by
    rw [silent, opsAnswered_nil, zero_add]
    exact canceledOps_of_effect (step_effect taken) kept
  have unfaulted : s.fault.isSome = false := by
    by_contra faulted
    simp [step, faulted] at taken
  cases action with
  | cancel e flag =>
    simp only [step, unfaulted, Bool.false_eq_true, if_false, State.call,
      Option.ite_none_right_eq_some, Option.some.injEq] at taken
    obtain ⟨_, held, rfl⟩ := taken
    exact canceledOps_cancelRecv (sound.cb_of_known (holdsRequest_iff.mp held)) flag
  | cancelShared e flag =>
    simp only [step, unfaulted, Bool.false_eq_true, if_false, State.call,
      Option.ite_none_right_eq_some, Option.some.injEq] at taken
    obtain ⟨_, held, rfl⟩ := taken
    exact canceledOps_cancelShared (sound.cb_of_known (holdsRequest_iff.mp held)) flag
  | _ => exact other rfl rfl

abbrev recordStep (limit : Nat) := record Action.results (step limit)

theorem confirmed_of_reaches {allowed : State → Action → Prop}
    {recorded : State × List (Nat × CancelResult)}
    (reached : Reaches (recordStep limit) (fun s => allowed s.1) (State.initial, []) recorded) :
    Event.canceledOps recorded.1.history = opsAnswered (.returned true) recorded.2 := by
  have both := reached.invariant (fun recorded => recorded.1.Sound ∧
    Event.canceledOps recorded.1.history = opsAnswered (.returned true) recorded.2)
    ⟨.start, rfl⟩ ?_
  · exact both.2
  · rintro before action after ⟨sound, confirmed⟩ _ taken
    obtain ⟨next, moved, rfl⟩ := Option.map_eq_some_iff.mp taken
    refine ⟨sound.effect (step_effect moved), ?_⟩
    rw [step_canceledOps sound moved, confirmed, opsAnswered_append]

theorem canceledAnswer_iff {recorded : State × List (Nat × CancelResult)} {post : Post}
    (reached : Reaches (recordStep limit) (fun s => Sane s.1) (State.initial, []) recorded)
    (posted : recorded.1.posts[e]? = some post) :
    CanceledAnswer post (recorded.1.requests e) ((e, .returned true) ∈ recorded.2)
      (e ∈ Event.calledOps recorded.1.history) ↔ post.inplace = false := by
  have plain := reached.of_record
  have consistent := (State.Tracked.of_reaches plain).consistent
  have confirmed : Event.canceledOps recorded.1.history = 0 + _ :=
    (confirmed_of_reaches reached).trans (zero_add _).symm
  exact (canceledAnswer_of_sound (marks_of_reaches plain)
    (Multiset.nodup_add.mp consistent.placed_nodup).2.1 consistent.not_withdrawn_of_called confirmed
    posted).trans (and_iff_left (Multiset.notMem_zero e))

end Oomph.Mpi
