import Oomph.Answers
import Oomph.Libfabric.Delivery

namespace Oomph.Libfabric

open Machine State

variable {config : Config} {s t : State} {thread op : Nat} {act : Act}

def State.marks (s : State) : Marks :=
  marksOf s.posts (fun op => (s.heap op).toRequestStateBase) s.history

namespace State

@[simp] theorem incRecursion_heap (via : Via) : (s.incRecursion via).heap = s.heap := by
  cases via <;> rfl

@[simp] theorem decRecursion_heap (via : Via) : (s.decRecursion via).heap = s.heap := by
  cases via <;> rfl

end State

private theorem marks_unchanged (posts : t.posts = s.posts) (heap : t.heap = s.heap)
    (history : t.history = s.history) : Marks.Step s.marks t.marks := by
  unfold State.marks
  rw [posts, heap, history]
  exact marks_same (fun _ => rfl) (fun _ => id) rfl rfl

private theorem marks_start (via : Via) (rest : List Frame) :
    Marks.Step s.marks (s.start thread op via rest).marks := by
  have step : Marks.Step s.marks
      (marksOf s.posts (fun e => ((s.releaseSelfRef op).heap e).toRequestStateBase)
        (.called (s.heap op).cb (s.heap op).rank (s.heap op).tag :: s.history)) := by
    refine marks_same (fun e => ?_) (fun e => Multiset.mem_cons_of_mem) rfl rfl
    by_cases same : e = op
    · subst same
      simp [RequestStateBase.flags]
    · simp [RequestStateBase.flags, Function.update_of_ne same]
  simpa [State.marks, State.start] using step

private theorem marks_returnCallback (settled : s.Settled)
    (consistent : s.books.Consistent Post.counter) {via : Via} {rest : List Frame}
    (found : s.threads[thread]? = some (.callback op via :: rest)) :
    Marks.Step s.marks (s.returnCallback thread op via rest).marks := by
  obtain ⟨post, posted, made, _⟩ := settled.head found
  have known := (List.getElem?_eq_some_iff.mp posted).1
  unfold State.returnCallback
  split
  · have step : Marks.Step s.marks (marksOf s.posts (fun e => (s.heap e).toRequestStateBase)
        (.returned op :: s.history)) := marks_return posted made fun _ => rfl
    simpa [State.marks] using step
  · rename_i request
    have request : via.isInject = false := by
      cases via with
      | inject comm => exact absurd rfl (request comm)
      | _ => rfl
    have cb := (settled.request ⟨post, posted, made.trans request⟩).1
    have step : Marks.Step s.marks
        (marksOf s.posts (fun e => ((s.finishCb op).heap e).toRequestStateBase)
          (.returned op :: s.history)) := by
      refine marks_finish known (consistent.called_of_running ?_) ?_ fun e other => ?_
      · exact mem_total.mpr ⟨_, List.mem_of_getElem? found, by simp⟩
      · simp [RequestStateBase.flags]
      · simp [RequestStateBase.flags, Function.update_of_ne other]
    simpa [State.marks, cb] using step

private theorem marks_withdrawn (settled : s.Settled) {user : Option Nat} {queue : List Nat}
    {rest : List Frame} (found : s.threads[thread]? = some (.call user (.scan op) :: rest)) :
    Marks.Step s.marks (s.withdraw thread user op queue rest).marks := by
  have made := Belongs.made (settled.head found)
  have cb := (settled.request made).1
  obtain ⟨post, posted, _⟩ := made
  have heap : (s.setCancelQueue user queue).heap = s.heap := by cases user <;> rfl
  have step : Marks.Step s.marks
      (marksOf s.posts (fun e => (((s.releaseSelfRef op).setCanceled op).heap e).toRequestStateBase)
        (.canceled op :: s.history)) := by
    refine marks_withdraw (List.getElem?_eq_some_iff.mp posted).1 ?_ fun e other => ?_
    · simp [RequestStateBase.flags]
    · simp [RequestStateBase.flags, Function.update_of_ne other]
  have records := s.sameRecords_setCancelQueue user queue
  simpa [State.marks, State.withdraw, heap, cb, records.posts, records.history] using step

theorem effect_marks (settled : s.Settled) (consistent : s.books.Consistent Post.counter)
    (effect : Effect config s thread act t) :
    Marks.Step s.marks t.marks := by
  cases effect with
  | post act comm kind rank tag stack =>
    refine marks_post (fun _ => ?_) nofun (fun e other => ?_) (fun _ => id) rfl rfl
    · simp [State.beginPost, RequestStateBase.flags, RequestStateBase.create]
    · simp [State.beginPost, RequestStateBase.flags, Function.update_of_ne other]
  | runInject comm dst tag =>
    exact marks_post nofun (fun _ => Multiset.mem_cons_self _ _) (fun e _ => rfl)
      (fun e => Multiset.mem_cons_of_mem) rfl rfl
  | queueInject comm dst tag =>
    refine marks_post (fun _ => ?_) nofun (fun e other => ?_) (fun _ => id) rfl rfl
    · simp [State.queueInject, RequestStateBase.flags, RequestStateBase.create]
    · simp [State.queueInject, RequestStateBase.flags, Function.update_of_ne other]
  | start op via rest found => exact marks_start via rest
  | returnCallback op via rest found => exact marks_returnCallback settled consistent found
  | withdraw user op queue rest found => exact marks_withdrawn settled found
  | give user op post =>
    have records := s.sameRecords_give op post.kind
    exact marks_unchanged records.posts (by cases post.kind <;> rfl) records.history
  | take frame user side ops =>
    have records := s.sameRecords_take side ops
    exact marks_unchanged records.posts (by cases side <;> rfl) records.history
  | canceled frame user op post =>
    have records := s.sameRecords_handleCancelled op post
    exact marks_unchanged records.posts
      (by unfold handleCancelled pushCancel; split <;> rfl) records.history
  | park op side post =>
    have records := s.sameRecords_pushCb post side op
    exact marks_unchanged records.posts (by unfold pushCb; split <;> rfl) records.history
  | pop comm stage destroying op queue =>
    have records := s.sameRecords_setCbQueue comm stage queue
    exact marks_unchanged records.posts (by cases stage <;> rfl) records.history
  | rescan user op queue =>
    have records := s.sameRecords_setCancelQueue user queue
    exact marks_unchanged records.posts (by cases user <;> rfl) records.history
  | _ => exact marks_unchanged rfl rfl rfl

def State.Confirmed (s : State) : Prop :=
  Event.canceledOps s.history = opsAnswered true s.cancelResults

private theorem confirmed_same (confirmed : s.Confirmed)
    (canceled : Event.canceledOps t.history = Event.canceledOps s.history)
    (results : t.cancelResults = s.cancelResults) : t.Confirmed := by
  rw [State.Confirmed, canceled, results]
  exact confirmed

theorem effect_confirmed (settled : s.Settled) (confirmed : s.Confirmed)
    (effect : Effect config s thread act t) : t.Confirmed := by
  cases effect with
  | refuse op =>
    rw [State.Confirmed, returnCancel_cancelResults, opsAnswered_cons_of_ne op Bool.false_ne_true]
    exact confirmed
  | withdraw user op queue rest found =>
    have cb := (settled.request (Belongs.made (settled.head found))).1
    unfold State.Confirmed at confirmed ⊢
    cases user <;> simpa [State.withdraw, State.setCancelQueue, cb] using confirmed
  | returnCallback op via =>
    cases via <;> exact confirmed_same confirmed (by rfl) rfl
  | start op via => cases via <;> exact confirmed_same confirmed (by rfl) rfl
  | give user op post => cases post.kind <;> exact confirmed_same confirmed rfl rfl
  | take frame user side => cases side <;> exact confirmed_same confirmed rfl rfl
  | canceled frame user op post =>
    unfold handleCancelled pushCancel
    split <;> exact confirmed_same confirmed rfl rfl
  | park op side post =>
    unfold pushCb
    split <;> exact confirmed_same confirmed rfl rfl
  | pop comm stage => cases stage <;> exact confirmed_same confirmed rfl rfl
  | rescan user => cases user <;> exact confirmed_same confirmed rfl rfl
  | _ => exact confirmed_same confirmed rfl rfl

def State.OnlySendsInplace (s : State) : Prop :=
  ∀ post ∈ s.posts, post.kind ≠ .send → post.inplace = false

private theorem inplace_append (inplace : s.OnlySendsInplace) (post : Post)
    (request : post.kind ≠ .send → post.inplace = false) (posts : t.posts = s.posts ++ [post]) :
    t.OnlySendsInplace := by
  intro found member
  rw [posts, List.mem_append, List.mem_singleton] at member
  rcases member with old | rfl
  · exact inplace found old
  · exact request

theorem effect_inplace (inplace : s.OnlySendsInplace) (effect : Effect config s thread act t) :
    t.OnlySendsInplace := by
  have kept (posts : t.posts = s.posts) : t.OnlySendsInplace := by
    rw [State.OnlySendsInplace, posts]
    exact inplace
  cases effect with
  | post act comm kind rank tag => exact inplace_append inplace _ (fun _ => rfl) rfl
  | queueInject => exact inplace_append inplace _ (fun _ => rfl) rfl
  | runInject => exact inplace_append inplace _ (fun receive => absurd rfl receive) rfl
  | returnCallback op via => cases via <;> exact kept rfl
  | start op via => exact kept (by simp [State.start])
  | give => exact kept (by simp)
  | take => exact kept (by simp)
  | canceled frame user op post =>
    exact kept (s.sameRecords_handleCancelled op post).posts
  | park => exact kept (by simp)
  | pop => exact kept (by simp)
  | withdraw => exact kept (by simp [State.withdraw])
  | rescan => exact kept (by simp)
  | _ => exact kept rfl

structure State.Flagged (s : State) : Prop where
  settled : s.Settled
  consistent : s.books.Consistent Post.counter
  marks : s.marks.Sound
  confirmed : s.Confirmed
  inplace : s.OnlySendsInplace

theorem State.Flagged.initial (threads : Nat) : (State.initial threads).Flagged where
  settled := .initial threads
  consistent := consistent_initial threads
  marks := ⟨nofun, nofun, nofun, nofun, nofun⟩
  confirmed := rfl
  inplace := nofun

theorem State.Flagged.effect (flagged : s.Flagged) (effect : Effect config s thread act t) :
    t.Flagged where
  settled := flagged.settled.effect effect
  consistent := flagged.consistent.entries (effect_entry flagged.settled effect)
  marks := flagged.marks.step (effect_marks flagged.settled flagged.consistent effect)
  confirmed := effect_confirmed flagged.settled flagged.confirmed effect
  inplace := effect_inplace flagged.inplace effect

theorem flagged_of_reaches {allowed : State → Action → Prop} {threads : Nat}
    (reached : Reaches (step config) allowed (State.initial threads) s) : s.Flagged :=
  reached.invariant State.Flagged (.initial threads)
    fun _ _ _ flagged _ taken => flagged.effect (step_effect taken)

theorem marks_of_reaches {allowed : State → Action → Prop} {threads : Nat}
    (reached : Reaches (step config) allowed (State.initial threads) s) : s.marks.Sound :=
  (flagged_of_reaches reached).marks

theorem State.Flagged.canceledAnswer (flagged : s.Flagged) {post : Post}
    (posted : s.posts[op]? = some post) (receive : post.kind ≠ .send) :
    CanceledAnswer post (s.heap op).toRequestStateBase ((op, true) ∈ s.cancelResults)
      (op ∈ Event.calledOps s.history) := by
  have consistent := flagged.consistent
  have request := flagged.inplace post (List.mem_of_getElem? posted) receive
  refine (canceledAnswer_of_sound flagged.marks (Multiset.nodup_add.mp consistent.placed_nodup).2.1
    consistent.not_withdrawn_of_called ?_ posted).mpr ⟨request, Multiset.notMem_zero op⟩
  rw [zero_add]
  exact flagged.confirmed

end Oomph.Libfabric
