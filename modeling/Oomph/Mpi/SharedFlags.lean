import Oomph.Mpi.SharedLaw

namespace Oomph.Mpi.Shared

open Machine

/-! `is_ready` and `is_canceled` of a shared receive load one atomic variable each.  `set_canceled`
stores `m_ready` before `m_canceled`, so between the two a cancelled receive looks like a
completed one.
-/

variable {s t : State} {thread e : Nat} {stack moved rest : List Frame} {act : Act}

/-- A thread has stored `m_ready` of a cancelled request and is about to store `m_canceled`. -/
def State.Between (s : State) (e : Nat) : Prop :=
  ∃ stack ∈ s.threads, ∃ localQueue, Frame.markCanceled e localQueue ∈ stack

private theorem between_move (between : s.Between e) (top moved : List Frame)
    (found : s.threads[thread]? = some (top ++ rest))
    (threads : t.threads = s.threads.set thread (moved ++ rest))
    (other : ∀ localQueue, Frame.markCanceled e localQueue ∉ top) : t.Between e := by
  obtain ⟨stack, member, localQueue, inside⟩ := between
  have within := (List.getElem?_eq_some_iff.mp found).1
  obtain ⟨i, here⟩ := List.mem_iff_getElem?.mp member
  by_cases same : i = thread
  · subst same
    rw [found, Option.some.injEq] at here
    subst here
    refine ⟨moved ++ rest, by rw [threads]; exact List.mem_set within _, localQueue, ?_⟩
    exact List.mem_append_right _ ((List.mem_append.mp inside).resolve_left (other localQueue))
  · refine ⟨stack, ?_, localQueue, inside⟩
    rw [threads]
    exact List.mem_of_getElem? (by rw [List.getElem?_set_ne (Ne.symm same), here])

theorem between_of_effect (effect : Effect s thread act t) (between : s.Between e) :
    t.Between e ∨ (t.heap e).canceled = true := by
  cases effect with
  | post rank tag stack found => exact .inl (between_move between [] [_] found rfl (by simp))
  | progress stack found => exact .inl (between_move between [] [_] found rfl (by simp))
  | late => exact .inl between
  | startCancel e stack found => exact .inl (between_move between [] [_] found rfl (by simp))
  | complete => exact .inl between
  | markCanceled other localQueue rest found =>
    by_cases same : e = other
    · exact .inr (by simp [same])
    · exact .inl (between_move between [_] [_] found rfl (by simp [same]))
  | enqueue other rest found => exact .inl (between_move between [_] [] found rfl (by simp))
  | nested rest found => exact .inl (between_move between [_] [] found rfl (by simp))
  | nothing rest found => exact .inl (between_move between [_] [] found rfl (by simp))
  | setReady other rest found => exact .inl (between_move between [_] [] found rfl (by simp))
  | returns other canceled rest found =>
    exact .inl (between_move between [_] [] found rfl (by simp))
  | threw other localQueue canceled rest found =>
    exact .inl (between_move between [_] [] found rfl (by simp))
  | _ => exact .inl (between_move between [_] [_] ‹_› rfl (by simp))

theorem Effect.history (effect : Effect s thread act t) : Event.Extends s.history t.history := by
  cases effect with
  | call => exact .one _
  | countDown => exact .one _
  | withdraw => exact .one _
  | _ => exact .same

private theorem flags_same {x : Nat} {request : RequestState}
    (heap : t.heap = Function.update s.heap x request) (ready : request.ready = (s.heap x).ready)
    (canceled : request.canceled = (s.heap x).canceled) (e : Nat) :
    (t.heap e).ready = (s.heap e).ready ∧ (t.heap e).canceled = (s.heap e).canceled := by
  rw [heap]
  by_cases same : e = x
  · subst same
    rw [Function.update_self]
    exact ⟨ready, canceled⟩
  · rw [Function.update_of_ne same]
    exact ⟨rfl, rfl⟩

inductive FlagStep (s : State) (thread : Nat) (t : State) : Prop
  | same : (∀ e, (t.heap e).ready = (s.heap e).ready ∧
      (t.heap e).canceled = (s.heap e).canceled) → FlagStep s thread t
  | made (request : RequestState) : t.heap = Function.update s.heap s.posts.length request →
      request.ready = false → request.canceled = false → FlagStep s thread t
  | called (e : Nat) (rest : List Frame) : s.threads[thread]? = some (.setReady e :: rest) →
      t.heap = Function.update s.heap e { s.heap e with ready := true } → FlagStep s thread t
  | withdrawn (e : Nat) (localQueue : List Nat) (rest : List Frame) :
      s.threads[thread]? = some (.markReady e localQueue :: rest) → t.Between e →
      t.heap = Function.update s.heap e { s.heap e with ready := true } → FlagStep s thread t
  | canceled (e : Nat) (localQueue : List Nat) (rest : List Frame) :
      s.threads[thread]? = some (.markCanceled e localQueue :: rest) →
      t.heap = Function.update s.heap e { s.heap e with canceled := true } → FlagStep s thread t

theorem flags_of_effect (effect : Effect s thread act t) : FlagStep s thread t := by
  cases effect with
  | post => exact .made _ rfl rfl rfl
  | found => exact .same (flags_same rfl rfl rfl)
  | call => exact .same (flags_same rfl rfl rfl)
  | withdraw => exact .same (flags_same rfl rfl rfl)
  | canceled => exact .same (flags_same rfl rfl rfl)
  | tooLate => exact .same (flags_same rfl rfl rfl)
  | setReady e rest found => exact .called e rest found rfl
  | markReady e localQueue rest found =>
    refine .withdrawn e localQueue rest found ⟨.markCanceled e localQueue :: rest, ?_, localQueue,
      List.mem_cons_self⟩ rfl
    exact List.mem_set (List.getElem?_eq_some_iff.mp found).1 _
  | markCanceled e localQueue rest found => exact .canceled e localQueue rest found rfl
  | _ => exact .same fun _ => ⟨rfl, rfl⟩

theorem FlagStep.kept (flags : FlagStep s thread t) (known : e < s.posts.length) :
    ((s.heap e).ready = true → (t.heap e).ready = true) ∧
      ((s.heap e).canceled = true → (t.heap e).canceled = true) := by
  cases flags with
  | same same =>
    rw [(same e).1, (same e).2]
    exact ⟨id, id⟩
  | made request heap =>
    rw [heap, Function.update_of_ne (Nat.ne_of_lt known)]
    exact ⟨id, id⟩
  | called other rest _ heap =>
    rw [heap]
    by_cases mine : e = other <;> simp [mine]
  | withdrawn other localQueue rest _ _ heap =>
    rw [heap]
    by_cases mine : e = other <;> simp [mine]
  | canceled other localQueue rest _ heap =>
    rw [heap]
    by_cases mine : e = other <;> simp [mine]

/-- A request that is ready was called back or cancelled, and `m_canceled` says which, except
between the two stores. -/
structure State.Flagged (s : State) : Prop where
  ready : ∀ e, (s.heap e).ready = true →
    e ∈ Event.calledOps s.history ∨ (s.heap e).canceled = true ∨ s.Between e
  canceled : ∀ e, (s.heap e).canceled = true → e ∈ Event.canceledOps s.history

namespace State.Flagged

theorem initial (threads : Nat) : (State.initial threads).Flagged where
  ready _ marked := by cases marked
  canceled _ marked := by cases marked

theorem step (told : s.Told) (flagged : s.Flagged) (effect : Effect s thread act t) :
    t.Flagged := by
  have flags := flags_of_effect effect
  have top {frame : Frame} {rest : List Frame} (found : s.threads[thread]? = some (frame :: rest)) :
      frame.Told s.history :=
    told.frames _ (List.mem_of_getElem? found) frame List.mem_cons_self
  have keeps {e : Nat} (ready : (s.heap e).ready = true)
      (same : (t.heap e).canceled = (s.heap e).canceled) :
      e ∈ Event.calledOps t.history ∨ (t.heap e).canceled = true ∨ t.Between e := by
    rcases flagged.ready e ready with called | marked | between
    · exact .inl (effect.history.called called)
    · exact .inr (.inl (by rw [same, marked]))
    · exact .inr (between_of_effect effect between).symm
  refine ⟨fun e ready => ?_, fun e canceled => ?_⟩
  · cases flags with
    | same same =>
      rw [(same e).1] at ready
      exact keeps ready (same e).2
    | made request heap unready =>
      have other : e ≠ s.posts.length := by
        rintro rfl
        simp [heap, unready] at ready
      rw [heap, Function.update_of_ne other] at ready
      exact keeps ready (by rw [heap, Function.update_of_ne other])
    | called other rest found heap =>
      by_cases mine : e = other
      · subst mine
        exact .inl (effect.history.called (top found))
      · rw [heap, Function.update_of_ne mine] at ready
        exact keeps ready (by rw [heap, Function.update_of_ne mine])
    | withdrawn other localQueue rest _ between heap =>
      by_cases mine : e = other
      · subst mine
        exact .inr (.inr between)
      · rw [heap, Function.update_of_ne mine] at ready
        exact keeps ready (by rw [heap, Function.update_of_ne mine])
    | canceled other localQueue rest _ heap =>
      by_cases mine : e = other
      · subst mine
        exact .inr (.inl (by simp [heap]))
      · rw [heap, Function.update_of_ne mine] at ready
        exact keeps ready (by rw [heap, Function.update_of_ne mine])
  · refine effect.history.canceled ?_
    cases flags with
    | same same =>
      rw [(same e).2] at canceled
      exact flagged.canceled e canceled
    | made request heap _ unmarked =>
      have other : e ≠ s.posts.length := by
        rintro rfl
        simp [heap, unmarked] at canceled
      rw [heap, Function.update_of_ne other] at canceled
      exact flagged.canceled e canceled
    | called other rest _ heap =>
      refine flagged.canceled e ?_
      by_cases mine : e = other <;> simpa [heap, mine] using canceled
    | withdrawn other localQueue rest _ _ heap =>
      refine flagged.canceled e ?_
      by_cases mine : e = other <;> simpa [heap, mine] using canceled
    | canceled other localQueue rest found heap =>
      by_cases mine : e = other
      · subst mine
        exact top found
      · rw [heap, Function.update_of_ne mine] at canceled
        exact flagged.canceled e canceled

end State.Flagged

theorem flagged_of_reaches {threads : Nat}
    (reached : Reaches step (fun _ _ => True) (State.initial threads) s) :
    ∃ lost, s.Tracked lost ∧ s.Flagged := by
  refine reached.invariant (fun s => ∃ lost, s.Tracked lost ∧ s.Flagged)
    ⟨0, .initial threads, .initial threads⟩ ?_
  rintro before action after ⟨lost, tracked, flagged⟩ _ taken
  have effect := step_effect taken
  obtain ⟨gone, tracked', _⟩ := tracked.step effect
  exact ⟨gone, tracked', flagged.step tracked.told effect⟩

theorem posts_of_effect (effect : Effect s thread act t) : s.posts.length ≤ t.posts.length := by
  cases effect with
  | post => simp
  | _ => exact Nat.le_refl _

theorem flags_of_reaches {allowed : State → Action → Prop} (known : e < s.posts.length)
    (later : Reaches step allowed s t) :
    ((s.heap e).ready = true → (t.heap e).ready = true) ∧
      ((s.heap e).canceled = true → (t.heap e).canceled = true) := by
  have kept : e < t.posts.length ∧ ((s.heap e).ready = true → (t.heap e).ready = true) ∧
      ((s.heap e).canceled = true → (t.heap e).canceled = true) := by
    refine later.invariant (fun t => e < t.posts.length ∧
      ((s.heap e).ready = true → (t.heap e).ready = true) ∧
      ((s.heap e).canceled = true → (t.heap e).canceled = true)) ⟨known, id, id⟩ ?_
    rintro before action after ⟨known, ready, canceled⟩ _ taken
    have effect := step_effect taken
    have flags := (flags_of_effect effect).kept known
    exact ⟨Nat.lt_of_lt_of_le known (posts_of_effect effect), flags.1 ∘ ready, flags.2 ∘ canceled⟩
  exact kept.2

/-- A thread sees `is_ready` true and afterwards `is_canceled` false.  The callback has been
called just when no cancel is between its two stores; and neither answer goes back. -/
theorem observed_called_iff (threads : Nat)
    (reached : Reaches step (fun _ _ => True) (State.initial threads) s)
    (later : Reaches step (fun _ _ => True) s t) (known : e < s.posts.length) :
    ((s.heap e).ready = true → (t.heap e).ready = true) ∧
      ((s.heap e).canceled = true → (t.heap e).canceled = true) ∧
      ((s.heap e).ready = true → (t.heap e).canceled = false →
        (e ∈ Event.calledOps t.history ↔ ¬ t.Between e)) := by
  obtain ⟨readyKept, canceledKept⟩ := flags_of_reaches known later
  refine ⟨readyKept, canceledKept, fun ready uncanceled => ⟨fun called between => ?_, fun apart => ?_⟩⟩
  · obtain ⟨lost, tracked, _⟩ := flagged_of_reaches (reached.trans later)
    obtain ⟨stack, member, localQueue, inside⟩ := between
    exact tracked.consistent.not_withdrawn_of_called called
      (tracked.told.frames stack member _ inside)
  · obtain ⟨lost, _, flagged⟩ := flagged_of_reaches (reached.trans later)
    rcases flagged.ready e (readyKept ready) with called | canceled | between
    · exact called
    · rw [uncanceled] at canceled
      cases canceled
    · exact absurd between apart

/-- A shared receive completes and is seen so. -/
theorem observed_called_after_completion :
    ∃ s, Reaches step (fun _ _ => True) (State.initial 2) s ∧ (s.heap 0).ready = true ∧
      (s.heap 0).canceled = false ∧ 0 ∈ Event.calledOps s.history := by
  obtain ⟨s, reached, ready, uncanceled, known, threads⟩ := exists_of_run step (fun _ _ => True)
      (State.initial 2)
    [⟨0, .post 1 7⟩, ⟨0, .advance⟩, ⟨0, .complete 0⟩, ⟨0, .progress⟩, ⟨0, .advance⟩, ⟨0, .advance⟩,
      ⟨0, .advance⟩, ⟨0, .advance⟩, ⟨0, .callbackReturns⟩, ⟨0, .advance⟩, ⟨0, .advance⟩]
    (fun s => (s.heap 0).ready = true ∧ (s.heap 0).canceled = false ∧ 0 < s.posts.length ∧
      s.threads = [[], []]) (by decide +kernel)
  have apart : ¬ s.Between 0 := by simp [State.Between, threads]
  obtain ⟨_, _, observed⟩ := observed_called_iff 2 reached .refl known
  exact ⟨s, reached, ready, uncanceled, (observed ready uncanceled).mpr apart⟩

/-- Thread 1 reads the request that thread 0 cancels between the two stores: it is ready and not
cancelled, but it was not called back, and the cancel returns true. -/
theorem canceled_seen_completed :
    ∃ s t, Reaches step (fun _ _ => True) (State.initial 2) s ∧ (s.heap 0).ready = true ∧
      (s.heap 0).canceled = false ∧ 0 ∉ Event.calledOps s.history ∧
      Reaches step (fun _ _ => True) s t ∧ t.results = [(0, .returned true)] ∧
      0 ∉ Event.calledOps t.history := by
  have ran : (run step (fun _ _ => True) (State.initial 2)
      [⟨0, .post 1 7⟩, ⟨0, .advance⟩, ⟨0, .cancel 0⟩, ⟨0, .advance⟩, ⟨0, .answer true⟩,
        ⟨0, .advance⟩, ⟨0, .advance⟩]).bind (fun s => (run step (fun _ _ => True) s
          [⟨0, .advance⟩, ⟨0, .advance⟩, ⟨0, .advance⟩]).map fun t => decide
            ((s.heap 0).ready = true ∧ (s.heap 0).canceled = false ∧
              0 ∉ Event.calledOps s.history ∧ t.results = [(0, .returned true)] ∧
              0 ∉ Event.calledOps t.history)) = some true := by decide +kernel
  obtain ⟨s, reached, ran⟩ := Option.bind_eq_some_iff.mp ran
  obtain ⟨t, later, ran⟩ := Option.map_eq_some_iff.mp ran
  obtain ⟨ready, uncanceled, uncalled, results, never⟩ := of_decide_eq_true ran
  exact ⟨s, t, reaches_of_run reached, ready, uncanceled, uncalled, reaches_of_run later, results,
    never⟩

end Oomph.Mpi.Shared
