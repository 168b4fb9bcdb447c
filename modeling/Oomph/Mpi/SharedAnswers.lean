import Oomph.Answers
import Oomph.Mpi.SharedFlags

namespace Oomph.Mpi.Shared

open Machine

namespace Frame

/-- The receive that a cancel has withdrawn but not marked as cancelled. -/
def marking : Frame → Multiset Nat
  | .markReady e _ => {e}
  | .markCanceled e _ => {e}
  | _ => 0

/-- The receive that a cancel has marked and for which it is about to return true. -/
def returning : Frame → Multiset Nat
  | .consume e _ true => {e}
  | .cancel e _ true => {e}
  | .restore e _ true => {e}
  | _ => 0

end Frame

attribute [simp] Frame.marking Frame.returning

namespace State

def marking (s : State) : Multiset Nat :=
  total (total Frame.marking) s.threads

def returning (s : State) : Multiset Nat :=
  total (total Frame.returning) s.threads

def confirmed (s : State) : Multiset Nat :=
  s.returning + opsAnswered (.returned true) s.results

structure Confirmed (s : State) : Prop where
  canceled : Event.canceledOps s.history = s.marking + s.confirmed
  marked : ∀ e, (s.heap e).canceled = true ↔ e ∈ s.confirmed

end State

variable {s t : State} {thread e : Nat} {stack moved rest : List Frame} {act : Act}
  {lost : Multiset Nat}

private theorem total_moved (share : Frame → Multiset Nat) (gone gained : Multiset Nat)
    (found : s.threads[thread]? = some stack)
    (threads : t.threads = s.threads.set thread moved)
    (change : total share moved + gone = total share stack + gained) :
    total (total share) t.threads + gone = total (total share) s.threads + gained := by
  obtain ⟨others, whole, moves⟩ := total_split (total share) found
  rw [threads, moves, whole, add_right_comm, change, add_right_comm]

private theorem marking_moved (gone gained : Multiset Nat) (found : s.threads[thread]? = some stack)
    (threads : t.threads = s.threads.set thread moved)
    (change : total Frame.marking moved + gone = total Frame.marking stack + gained) :
    t.marking + gone = s.marking + gained :=
  total_moved Frame.marking gone gained found threads change

private theorem returning_moved (gone gained : Multiset Nat)
    (found : s.threads[thread]? = some stack)
    (threads : t.threads = s.threads.set thread moved)
    (change : total Frame.returning moved + gone = total Frame.returning stack + gained) :
    t.returning + gone = s.returning + gained :=
  total_moved Frame.returning gone gained found threads change

inductive ConfirmStep (s t : State) : Prop
  | same : t.marking = s.marking → t.confirmed = s.confirmed →
      Event.canceledOps t.history = Event.canceledOps s.history →
      (∀ e, (t.heap e).canceled = (s.heap e).canceled) → ConfirmStep s t
  | withdrawn (e : Nat) : t.marking = e ::ₘ s.marking → t.confirmed = s.confirmed →
      Event.canceledOps t.history = e ::ₘ Event.canceledOps s.history →
      (∀ e, (t.heap e).canceled = (s.heap e).canceled) → ConfirmStep s t
  | marked (e : Nat) : s.marking = e ::ₘ t.marking → t.confirmed = e ::ₘ s.confirmed →
      Event.canceledOps t.history = Event.canceledOps s.history →
      t.heap = Function.update s.heap e { s.heap e with canceled := true } → ConfirmStep s t

theorem ConfirmStep.confirmed (step : ConfirmStep s t) (confirmed : s.Confirmed) : t.Confirmed := by
  cases step with
  | same marking kept canceled flags =>
    refine ⟨by rw [canceled, marking, kept, confirmed.canceled], fun e => ?_⟩
    rw [flags, kept]
    exact confirmed.marked e
  | withdrawn e marking kept canceled flags =>
    refine ⟨by rw [canceled, marking, kept, confirmed.canceled, Multiset.cons_add], fun e => ?_⟩
    rw [flags, kept]
    exact confirmed.marked e
  | marked e marking more canceled heap =>
    refine ⟨?_, fun x => ?_⟩
    · rw [canceled, confirmed.canceled, marking, more, Multiset.cons_add, Multiset.add_cons]
    · rw [heap, more, Multiset.mem_cons]
      by_cases same : x = e
      · simp [same]
      · rw [Function.update_of_ne same, confirmed.marked, or_iff_right same]

private theorem step_same (found : s.threads[thread]? = some stack)
    (threads : t.threads = s.threads.set thread moved)
    (marking : total Frame.marking moved = total Frame.marking stack)
    (returning : total Frame.returning moved = total Frame.returning stack)
    (results : opsAnswered (.returned true) t.results = opsAnswered (.returned true) s.results)
    (canceled : Event.canceledOps t.history = Event.canceledOps s.history)
    (flags : ∀ e, (t.heap e).canceled = (s.heap e).canceled) : ConfirmStep s t := by
  have marks : t.marking = s.marking := by
    simpa using marking_moved 0 0 found threads (by simpa using marking)
  have returns : t.returning = s.returning := by
    simpa using returning_moved 0 0 found threads (by simpa using returning)
  exact .same marks (by rw [State.confirmed, State.confirmed, results, returns]) canceled flags

private theorem step_withdrawn {localQueue : List Nat}
    (found : s.threads[thread]? = some (.withdraw e localQueue :: rest))
    (threads : t.threads = s.threads.set thread (.markReady e localQueue :: rest))
    (results : t.results = s.results)
    (canceled : Event.canceledOps t.history = e ::ₘ Event.canceledOps s.history)
    (flags : ∀ e, (t.heap e).canceled = (s.heap e).canceled) : ConfirmStep s t := by
  have marks : t.marking = e ::ₘ s.marking := by
    simpa [add_comm] using marking_moved 0 {e} found threads (by simp [add_comm])
  have returns : t.returning = s.returning := by
    simpa using returning_moved 0 0 found threads (by simp)
  exact .withdrawn e marks (by rw [State.confirmed, State.confirmed, results, returns]) canceled
    flags

private theorem step_marked {localQueue : List Nat}
    (found : s.threads[thread]? = some (.markCanceled e localQueue :: rest))
    (threads : t.threads = s.threads.set thread (.consume e localQueue true :: rest))
    (results : t.results = s.results) (history : t.history = s.history)
    (heap : t.heap = Function.update s.heap e { s.heap e with canceled := true }) :
    ConfirmStep s t := by
  have marks : s.marking = e ::ₘ t.marking := by
    simpa [add_comm] using (marking_moved {e} 0 found threads (by simp [add_comm])).symm
  have returns : t.returning = e ::ₘ s.returning := by
    simpa [add_comm] using returning_moved 0 {e} found threads (by simp [add_comm])
  refine .marked e marks ?_ (by rw [history]) heap
  rw [State.confirmed, State.confirmed, results, returns, Multiset.cons_add]

private theorem step_returned (found : s.threads[thread]? = some (.restore e [] true :: rest))
    (threads : t.threads = s.threads.set thread rest)
    (results : t.results = (e, .returned true) :: s.results) (history : t.history = s.history)
    (heap : t.heap = s.heap) : ConfirmStep s t := by
  have marks : t.marking = s.marking := by
    simpa using marking_moved 0 0 found threads (by simp)
  have returns : e ::ₘ t.returning = s.returning := by
    simpa [add_comm] using returning_moved {e} 0 found threads (by simp [add_comm])
  refine .same marks ?_ (by rw [history]) fun _ => by rw [heap]
  rw [State.confirmed, State.confirmed, results, opsAnswered_cons_self, ← returns,
    Multiset.cons_add, Multiset.add_cons]

private theorem canceled_update {heap : Heap} {x : Nat} {request : RequestState}
    (same : request.canceled = (heap x).canceled) (e : Nat) :
    (Function.update heap x request e).canceled = (heap e).canceled :=
  attr_update (fun request : RequestState => request.canceled) same e

private theorem waits_of_frame {frame : Frame} (found : s.threads[thread]? = some (frame :: rest))
    (held : e ∈ frame.waiting) : e ∈ (s.books lost).waiting := by
  have hands : e ∈ total (total Frame.waiting) s.threads :=
    mem_total.mpr ⟨_, List.mem_of_getElem? found,
      mem_total.mpr ⟨frame, List.mem_cons_self, held⟩⟩
  exact Multiset.mem_add.mpr (.inl (Multiset.mem_add.mpr (.inr hands)))

private theorem first_cancel (tracked : s.Tracked lost) {localQueue : List Nat} {canceled : Bool}
    (found : s.threads[thread]? = some (.cancel e localQueue canceled :: rest)) :
    canceled = false := by
  cases canceled with
  | false => rfl
  | true =>
    exact absurd (tracked.told.frames _ (List.mem_of_getElem? found) _ List.mem_cons_self)
      (tracked.consistent.not_withdrawn_of_waiting (waits_of_frame found (by simp)))

theorem effect_confirmStep (tracked : s.Tracked lost) (confirmed : s.Confirmed)
    (effect : Effect s thread act t) : ConfirmStep s t := by
  cases effect with
  | post rank tag stack found =>
    refine step_same found rfl (by simp) (by simp) rfl rfl (canceled_update ?_)
    -- the new request is not marked, and no request that was not posted is
    have unmarked : ¬ (s.heap s.posts.length).canceled = true := fun marked => by
      have withdrawn : s.posts.length ∈ (s.books lost).withdrawn := by
        show s.posts.length ∈ Event.canceledOps s.history
        rw [confirmed.canceled]
        exact Multiset.mem_add.mpr (.inr ((confirmed.marked _).mp marked))
      exact Nat.lt_irrefl _ (tracked.consistent.mem_placed.mpr (.inr (.inr withdrawn)))
    rw [Bool.eq_false_iff.mpr unmarked]
    rfl
  | late e stack found =>
    exact .same rfl (congrArg (s.returning + ·) (opsAnswered_cons_of_ne e nofun)) rfl fun _ => rfl
  | complete e => exact .same rfl rfl rfl fun _ => rfl
  | found e localQueue rest found =>
    exact step_same found rfl (by simp) (by simp) rfl rfl (canceled_update rfl)
  | call e rest found =>
    exact step_same found rfl (by simp) (by simp) rfl rfl (canceled_update rfl)
  | setReady e rest found =>
    exact step_same found rfl (by simp) (by simp) rfl rfl (canceled_update rfl)
  | markReady e localQueue rest found =>
    exact step_same found rfl (by simp) (by simp) rfl rfl (canceled_update rfl)
  | consumed e localQueue canceled rest found =>
    refine step_same found rfl (by simp) ?_ rfl rfl fun _ => rfl
    cases canceled <;> simp
  | reach e queue localQueue canceled rest found =>
    refine step_same found rfl (by simp) ?_ rfl rfl fun _ => rfl
    cases canceled <;> simp
  | consume e x queue localQueue canceled rest found =>
    refine step_same found rfl (by simp) ?_ rfl rfl fun _ => rfl
    cases canceled <;> simp
  | restore e x localQueue canceled rest found =>
    refine step_same found rfl (by simp) ?_ rfl rfl fun _ => rfl
    cases canceled <;> simp
  | tooLate e op localQueue canceled rest found =>
    cases first_cancel tracked found
    exact step_same found rfl (by simp) (by simp) rfl rfl (canceled_update rfl)
  | canceled e op localQueue canceled rest found =>
    cases first_cancel tracked found
    exact step_same found rfl (by simp) (by simp) rfl rfl (canceled_update rfl)
  | ignored e localQueue canceled rest found =>
    cases first_cancel tracked found
    exact step_same found rfl (by simp) (by simp) rfl rfl fun _ => rfl
  | threw e localQueue canceled rest found =>
    cases first_cancel tracked found
    exact step_same found rfl (by simp) (by simp) (opsAnswered_cons_of_ne e nofun) rfl
      fun _ => rfl
  | withdraw e localQueue rest found =>
    have waits : e ∈ (s.books lost).waiting := waits_of_frame found (by simp)
    have known : e < s.posts.length := tracked.consistent.lt_of_waiting waits
    exact step_withdrawn found rfl rfl (by simp [(tracked.made.scheduled known).1])
      (canceled_update rfl)
  | markCanceled e localQueue rest found => exact step_marked found rfl rfl rfl rfl
  | returns e canceled rest found =>
    cases canceled with
    | true => exact step_returned found rfl rfl rfl rfl
    | false =>
      exact step_same found rfl (by simp) (by simp) (opsAnswered_cons_of_ne e nofun) rfl
        fun _ => rfl
  | _ => exact step_same ‹_› rfl (by simp) (by simp) rfl rfl fun _ => rfl

theorem confirmed_of_reaches {threads : Nat}
    (reached : Reaches step (fun _ _ => True) (State.initial threads) s) :
    ∃ lost, s.Tracked lost ∧ s.Confirmed := by
  refine reached.invariant (fun s => ∃ lost, s.Tracked lost ∧ s.Confirmed)
    ⟨0, .initial threads, ?_⟩ ?_
  · have marking : (State.initial threads).marking = 0 := total_replicate threads rfl
    have returning : (State.initial threads).returning = 0 := total_replicate threads rfl
    refine ⟨?_, fun e => ?_⟩
    · rw [State.confirmed, marking, returning]
      rfl
    · rw [State.confirmed, returning]
      exact ⟨nofun, nofun⟩
  · rintro before action after ⟨lost, tracked, confirmed⟩ _ taken
    have effect := step_effect taken
    obtain ⟨gone, later, _⟩ := tracked.step effect
    exact ⟨gone, later, (effect_confirmStep tracked confirmed effect).confirmed confirmed⟩

/-- The answer is right unless a cancel of the receive is about to return true. -/
theorem State.Confirmed.canceledAnswer_iff (confirmed : s.Confirmed) (tracked : s.Tracked lost)
    {post : Post} (posted : s.posts[e]? = some post) :
    CanceledAnswer post (s.heap e).toRequestStateBase ((e, .returned true) ∈ s.results)
        (e ∈ Event.calledOps s.history) ↔ e ∉ s.returning := by
  have request := (tracked.made.kind post (List.mem_of_getElem? posted)).2.2
  have withdrawn : (Event.canceledOps s.history).Nodup :=
    (Multiset.nodup_add.mp tracked.consistent.placed_nodup).2.1
  have apart : e ∈ Event.calledOps s.history → e ∉ Event.canceledOps s.history :=
    tracked.consistent.not_withdrawn_of_called
  rw [confirmed.canceled] at withdrawn apart
  rw [← mem_opsAnswered]
  refine (Oomph.canceledAnswer_iff (fun empty => ?_) (fun _ => confirmed.marked e)
    (Multiset.nodup_add.mp withdrawn).2.1 fun called marked => ?_).trans (and_iff_right request)
  · rw [request] at empty
    cases empty
  · exact apart called (Multiset.mem_add.mpr (.inr marked))

end Oomph.Mpi.Shared
