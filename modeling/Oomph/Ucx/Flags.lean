import Oomph.Answers
import Oomph.Ucx.Accounting

namespace Oomph.Ucx

open Machine State

variable {config : Config} {s t : State} {thread op : Nat} {act : Act} {user : Option Nat}

def State.marks (s : State) : Marks :=
  marksOf s.posts (fun op => (s.heap op).toRequestStateBase) s.history

private theorem marks_unchanged (posts : t.posts = s.posts) (heap : t.heap = s.heap)
    (history : t.history = s.history) : Marks.Step s.marks t.marks := by
  unfold State.marks
  rw [posts, heap, history]
  exact marks_same (fun _ => rfl) (fun _ => id) rfl rfl

private theorem marks_create {comm : Nat} {kind : Kind} {rank : RankType} {tag : TagType}
    {ptr : Option Nat} (posts : t.posts = (s.create comm kind rank tag ptr).posts)
    (heap : t.heap = (s.create comm kind rank tag ptr).heap) (history : t.history = s.history) :
    Marks.Step s.marks t.marks := by
  unfold State.marks
  rw [posts, heap, history]
  refine marks_post (fun _ => ?_) nofun (fun e other => ?_) (fun _ => id) rfl rfl
  · simp [RequestStateBase.flags, RequestStateBase.create]
  · simp [RequestStateBase.flags, Function.update_of_ne other]

private theorem marks_start (via : Via) (rest : List Frame) :
    Marks.Step s.marks (s.start thread op via rest).marks := by
  have step : Marks.Step s.marks
      (marksOf s.posts (fun e => ((s.releaseSelfRef op).heap e).toRequestStateBase)
        (.called (s.heap op).cb (s.heap op).rank (s.heap op).tag :: s.history)) := by
    refine marks_same (fun e => ?_) (fun e => Multiset.mem_cons_of_mem) rfl rfl
    by_cases same : e = op
    · subst same
      simp [RequestStateBase.flags]
    · simp [RequestStateBase.flags, Function.update_of_ne same]
  simpa [State.marks, State.start] using step

private theorem marks_returnCallback (settled : s.Settled)
    (consistent : s.books.Consistent Post.counter) {via : Via} {rest : List Frame}
    (found : s.threads[thread]? = some (.callback op via :: rest)) :
    Marks.Step s.marks (s.returnCallback thread op via rest).marks := by
  obtain ⟨post, posted, made, own⟩ := settled.head found
  have known := (List.getElem?_eq_some_iff.mp posted).1
  unfold State.returnCallback
  split
  · rename_i direct
    have step : Marks.Step s.marks (marksOf s.posts (fun e => (s.heap e).toRequestStateBase)
        (.returned op :: s.history)) := marks_return posted (made.trans direct) fun _ => rfl
    simpa [State.marks] using step
  · rename_i request
    have bare : post.inplace = false := by simpa [made] using request
    have cb := (settled.requestState ⟨post, posted, bare, own⟩).1
    have step : Marks.Step s.marks
        (marksOf s.posts (fun e => ((s.finishCb op).heap e).toRequestStateBase)
          (.returned op :: s.history)) := by
      refine marks_finish known (consistent.called_of_running ?_) ?_ fun e other => ?_
      · exact mem_total.mpr ⟨_, List.mem_of_getElem? found, by simp⟩
      · simp [RequestStateBase.flags]
      · simp [RequestStateBase.flags, Function.update_of_ne other]
    simpa [State.marks, cb] using step

theorem effect_marks (settled : s.Settled) (consistent : s.books.Consistent Post.counter)
    (effect : Effect config s thread act t) : Marks.Step s.marks t.marks := by
  cases effect with
  | runSend comm dst tag c rest found =>
    exact marks_post nofun (fun _ => Multiset.mem_cons_self _ _) (fun e _ => rfl)
      (fun e => Multiset.mem_cons_of_mem) rfl rfl
  | runEarly comm kind src tag rest found =>
    exact marks_post nofun (fun _ => Multiset.mem_cons_self _ _) (fun e _ => rfl)
      (fun e => Multiset.mem_cons_of_mem) rfl rfl
  | queueSend comm dst tag => exact marks_create rfl rfl rfl
  | submitSend comm dst tag ptr => exact marks_create rfl rfl rfl
  | submitRecv comm kind src tag ptr => exact marks_create rfl rfl rfl
  | deferEarly comm kind src tag ptr => exact marks_create rfl rfl rfl
  | start op via rest found => exact marks_start via rest
  | returnCallback op via rest found => exact marks_returnCallback settled consistent found
  | _ => exact marks_unchanged rfl rfl rfl

theorem cancelEffect_marks (settled : s.Settled) (effect : CancelEffect config s thread act t)
    (sound : t.fault = none) : Marks.Step s.marks t.marks := by
  cases effect with
  | bad user code op rest t found code gone fault => simp [sound] at fault
  | looped user op => cases user <;> exact marks_unchanged rfl rfl rfl
  | withdraw user op ptr rest found =>
    have belongs := ((settled.head found).2 op rfl).1
    have cb := (settled.requestState belongs).1
    obtain ⟨post, posted, _⟩ := belongs
    have step : Marks.Step s.marks
        (marksOf s.posts
          (fun e => (((s.releaseSelfRef op).setCanceled op).heap e).toRequestStateBase)
          (.canceled op :: s.history)) := by
      refine marks_withdraw (List.getElem?_eq_some_iff.mp posted).1 ?_ fun e other => ?_
      · simp [RequestStateBase.flags]
      · simp [RequestStateBase.flags, Function.update_of_ne other]
    simpa [State.marks, cb] using step
  | _ => exact marks_unchanged rfl rfl rfl

/-- A receive is cancelled by a cancel that has returned true, or is about to. -/
def State.Confirmed (s : State) : Prop :=
  Event.canceledOps s.history = s.freeing + opsAnswered true s.cancelResults

private theorem freeing_withdrawn {rest : List Frame}
    (found : s.threads[thread]? = some (.call user (.cancelScan op) :: rest))
    (threads : t.threads = s.threads.set thread (.call user (.cancelFree op) :: rest)) :
    t.freeing = op ::ₘ s.freeing := by
  obtain ⟨others, before, after⟩ := freeing_moved found threads
  simp [before, after]

private theorem freeing_freed {rest : List Frame}
    (found : s.threads[thread]? = some (.call user (.cancelFree op) :: rest))
    (threads : t.threads = s.threads.set thread rest) : s.freeing = op ::ₘ t.freeing := by
  obtain ⟨others, before, after⟩ := freeing_moved found threads
  simp [before, after]

theorem effect_confirmed (confirmed : s.Confirmed) (effect : Effect config s thread act t) :
    t.Confirmed := by
  unfold State.Confirmed at confirmed ⊢
  rw [effect_freeing effect]
  cases effect with
  | returnCallback op via rest found =>
    unfold State.returnCallback
    split <;> exact confirmed
  | _ => exact confirmed

theorem cancelEffect_confirmed (confirmed : s.Confirmed) (settled : s.Settled)
    (effect : CancelEffect config s thread act t) (sound : t.fault = none) : t.Confirmed := by
  unfold State.Confirmed at confirmed ⊢
  cases effect with
  | bad user code op rest t found code gone fault => simp [sound] at fault
  | refuse op => exact confirmed
  | begin op post stack found =>
    rw [freeing_same found rfl (by simp)]
    exact confirmed
  | ask user op ptr rest found =>
    rw [freeing_same found rfl (by simp)]
    exact confirmed
  | sendCanceled comm request rest found =>
    rw [freeing_same found rfl (by simp)]
    exact confirmed
  | looped user op rest found =>
    cases user with
    | none =>
      rw [freeing_same found rfl (by simp)]
      exact confirmed
    | some comm =>
      rw [freeing_same found rfl (by simp)]
      exact confirmed
  | missed user op rest found =>
    rw [freeing_same found rfl (by simp)]
    exact confirmed
  | withdraw user op ptr rest found =>
    have cb := (settled.requestState ((settled.head found).2 op rfl).1).1
    rw [freeing_withdrawn found rfl, Multiset.cons_add]
    simpa [cb] using confirmed
  | free user op ptr rest found =>
    rw [freeing_freed (t := (((s.logPtr (.freed ptr (some op))).requestFree ptr).returnCancel op
      true).setStack thread rest) found rfl, Multiset.cons_add, ← Multiset.add_cons] at confirmed
    simpa using confirmed
  | _ => exact confirmed

structure State.Flagged (s : State) : Prop extends s.Accounted where
  marks : s.marks.Sound
  confirmed : s.Confirmed

theorem State.Flagged.initial (threads : Nat) : (State.initial threads).Flagged where
  toAccounted := .initial threads
  marks := ⟨nofun, nofun, nofun, nofun, nofun⟩
  confirmed := by
    have nothing : (State.initial threads).freeing = 0 := total_replicate threads rfl
    rw [State.Confirmed, nothing]
    rfl

theorem State.Flagged.step {action : Action} (flagged : s.Flagged) (careful : Careful s action)
    (taken : step config s action = some t) : t.Flagged := by
  have accounted := flagged.toAccounted.step careful taken
  rcases step_cases taken with effect | effect
  · exact ⟨accounted,
      flagged.marks.step (effect_marks flagged.settled flagged.consistent effect),
      effect_confirmed flagged.confirmed effect⟩
  · exact ⟨accounted,
      flagged.marks.step (cancelEffect_marks flagged.settled effect accounted.fault),
      cancelEffect_confirmed flagged.confirmed flagged.settled effect accounted.fault⟩

theorem flagged_of_reaches {threads : Nat}
    (reached : Reaches (step config) Careful (State.initial threads) s) : s.Flagged :=
  reached.invariant State.Flagged (.initial threads)
    fun _ _ _ flagged careful taken => flagged.step careful taken

/-- The answer of a receive is right unless it completed inside the posting call or a cancel of
it is about to return true. -/
theorem State.Flagged.canceledAnswer_iff (flagged : s.Flagged) {post : Post}
    (posted : s.posts[op]? = some post) :
    CanceledAnswer post (s.heap op).toRequestStateBase ((op, true) ∈ s.cancelResults)
        (op ∈ Event.calledOps s.history) ↔
      post.inplace = false ∧ op ∉ s.freeing :=
  canceledAnswer_of_sound flagged.marks (Multiset.nodup_add.mp flagged.consistent.placed_nodup).2.1
    flagged.consistent.not_withdrawn_of_called flagged.confirmed posted

end Oomph.Ucx
