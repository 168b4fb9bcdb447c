import Oomph.Mpi.SharedPlaces

namespace Oomph.Mpi.Shared

open Machine

variable {s t : State} {thread e : Nat} {stack rest : List Frame} {act : Act}

def Progresses (thread : Nat) (_ : State) (action : Action) : Prop :=
  action.thread = thread ∧
    (action.act = .progress ∨ action.act = .advance ∨ action.act = .callbackReturns)

private theorem advances (here : s.threads[thread]? = some stack)
    (taken : s.advance thread stack = some t) : Reaches step (Progresses thread) s t :=
  .single ⟨⟨thread, .advance⟩, ⟨rfl, .inr (.inl rfl)⟩, by simp [step, here, taken]⟩

private theorem here_setStack (here : s.threads[thread]? = some stack) (moved : List Frame) :
    (s.setStack thread moved).threads[thread]? = some moved :=
  List.getElem?_set_self (List.getElem?_eq_some_iff.mp here).1

private theorem setStack_setStack (first second : List Frame) :
    (s.setStack thread first).setStack thread second = s.setStack thread second := by
  simp [State.setStack, List.set_set]

private theorem setStack_self (here : s.threads[thread]? = some stack) :
    s.setStack thread stack = s := by
  obtain ⟨inside, rfl⟩ := List.getElem?_eq_some_iff.mp here
  simp [State.setStack]

private theorem pops {left : List Nat} (skipped localQueue : List Nat)
    (here : s.threads[thread]? = some (.pop localQueue :: rest))
    (whole : s.queue = skipped ++ e :: left) (waits : ∀ x ∈ skipped, s.isReady x = false) :
    Reaches step (Progresses thread) s
      ((s.setQueue left).setStack thread (.test e (localQueue ++ skipped) :: rest)) := by
  induction skipped generalizing s localQueue with
  | nil => exact advances here (by simp [State.advance, whole])
  | cons x skipped ih =>
    obtain ⟨pending, others⟩ := List.forall_mem_cons.mp waits
    -- the first request is popped and tested
    have popped : Reaches step (Progresses thread) s ((s.setQueue (skipped ++ e :: left)).setStack
        thread (.test x localQueue :: rest)) := advances here (by simp [State.advance, whole])
    have tested := advances (t := (s.setQueue (skipped ++ e :: left)).setStack thread
        (.pop (localQueue ++ [x]) :: rest))
      (here_setStack (s := s.setQueue (skipped ++ e :: left)) here (.test x localQueue :: rest))
      (by
        have same : ((s.setQueue (skipped ++ e :: left)).setStack thread
            (.test x localQueue :: rest)).isReady x = false := pending
        simp only [State.advance, same, Bool.false_eq_true, if_false, setStack_setStack])
    have later := ih (s := (s.setQueue (skipped ++ e :: left)).setStack thread
        (.pop (localQueue ++ [x]) :: rest)) (localQueue ++ [x])
      (here_setStack (s := s.setQueue (skipped ++ e :: left)) here _) rfl others
    have reached := (popped.trans tested).trans later
    simpa [State.setStack, State.setQueue, List.set_set] using reached

private theorem restores (localQueue : List Nat) (found : Option Nat)
    (here : s.threads[thread]? = some (.pushBack localQueue found :: rest)) :
    Reaches step (Progresses thread) s
      ((s.setQueue (s.queue ++ localQueue)).setStack thread (.pushBack [] found :: rest)) := by
  induction localQueue generalizing s with
  | nil =>
    rw [List.append_nil, show s.setQueue s.queue = s from rfl, setStack_self here]
  | cons x localQueue ih =>
    have pushed : Reaches step (Progresses thread) s
        ((s.push x).setStack thread (.pushBack localQueue found :: rest)) :=
      advances here rfl
    have later := ih (s := (s.push x).setStack thread (.pushBack localQueue found :: rest))
      (here_setStack (s := s.push x) here _)
    have reached := pushed.trans later
    simpa [State.setStack, State.setQueue, State.push, List.set_set] using reached

private theorem calls_first {skipped left : List Nat} (here : s.threads[thread]? = some [])
    (idle : s.inProgress thread = false) (whole : s.queue = skipped ++ e :: left)
    (waits : ∀ x ∈ skipped, s.isReady x = false) (ready : s.isReady e = true) :
    ∃ t, Reaches step (Progresses thread) s t ∧ t.threads = s.threads ∧
      t.inProgress thread = false ∧ t.posts = s.posts ∧ t.queue = left ++ skipped ∧
      (∀ x, x ≠ e → t.isReady x = s.isReady x) ∧
      Event.calledOps t.history = (s.heap e).cb ::ₘ Event.calledOps s.history := by
  -- the states between the loops
  let entered := (s.setInProgress thread true).setStack thread [.pop []]
  let tested := (entered.setQueue left).setStack thread [.test e skipped]
  let found := (tested.nullify e).setStack thread [.pushBack skipped (some e)]
  let restored := (found.setQueue (left ++ skipped)).setStack thread [.pushBack [] (some e)]
  let called := ((restored.releaseSelfRef e).callCb e).setStack thread [.callback e]
  let returned := called.setStack thread [.countDown e]
  let counted := (returned.countDownCb e (.returned (returned.heap e).cb)).setStack thread
    [.setReady e]
  let done := ((counted.setReady e).setInProgress thread false).setStack thread []
  have inside := (List.getElem?_eq_some_iff.mp here).1
  have enters : Reaches step (Progresses thread) s entered := by
    have begins : Reaches step (Progresses thread) s (s.setStack thread [.progress]) :=
      .single ⟨⟨thread, .progress⟩, ⟨rfl, .inl rfl⟩, by
        simp [step, here, inUserCode, State.userCall_progress]⟩
    refine begins.trans (advances (here_setStack here _) ?_)
    have quiet : (s.setStack thread [.progress]).inProgress thread = false := idle
    simp only [State.advance, quiet, Bool.false_eq_true, if_false, Option.some.injEq]
    simp [entered, State.setStack, State.setInProgress, List.set_set]
  have loops : Reaches step (Progresses thread) entered tested :=
    pops (s := entered) skipped [] (List.getElem?_set_self inside) whole waits
  have size : entered.threads.length = s.threads.length := List.length_set
  have top {u : State} (moved : List Frame) (same : u.threads.length = s.threads.length) :
      (u.setStack thread moved).threads[thread]? = some moved :=
    List.getElem?_set_self (by rw [same]; exact inside)
  have finds : Reaches step (Progresses thread) tested found := by
    refine advances (top [.test e skipped] size) ?_
    have complete : tested.isReady e = true := ready
    simp [State.advance, complete, found]
  have restoring : Reaches step (Progresses thread) found restored :=
    restores (s := found) skipped (some e) (top _ (by simp [tested, size]))
  have calls : Reaches step (Progresses thread) restored called :=
    advances (top [.pushBack [] (some e)] (by simp [found, tested, size])) rfl
  have returns : Reaches step (Progresses thread) called returned := by
    refine .single ⟨⟨thread, .callbackReturns⟩, ⟨rfl, .inr (.inr rfl)⟩, ?_⟩
    have running : called.threads[thread]? = some [.callback e] :=
      top _ (by simp [restored, found, tested, size])
    simp [step, running, inUserCode, State.userCall_callbackReturns, returned]
  have counts : Reaches step (Progresses thread) returned counted :=
    advances (top [.countDown e] (by simp [called, restored, found, tested, size])) rfl
  have ends : Reaches step (Progresses thread) counted done :=
    advances (top [.setReady e] (by simp [returned, called, restored, found, tested, size])) rfl
  refine ⟨done, ((((((enters.trans loops).trans finds).trans restoring).trans calls).trans
    returns).trans counts).trans ends, ?_, Function.update_self .., rfl, rfl, fun x other => ?_, ?_⟩
  · have threads : done.threads = (s.setStack thread []).threads := by
      simp [done, counted, returned, called, restored, found, tested, entered, List.set_set]
    rw [threads, setStack_self here]
  · have heap : done.heap x = s.heap x := by
      simp [done, counted, returned, called, restored, found, tested, entered, other]
    simp only [State.isReady, heap]
    rfl
  · have cb : (restored.heap e).cb = (s.heap e).cb := by
      simp [restored, found, tested, entered]
    simp [done, counted, returned, called, cb]
    rfl

theorem made_of_reaches {allowed : State → Action → Prop} (made : s.Made)
    (reached : Reaches step allowed s t) : t.Made := by
  refine reached.invariant State.Made made ?_
  intro before action after made _ taken
  exact made.step (step_effect taken)

/-- A request in the queue that is ready is called back after finitely many calls of
`progress`: each call takes one ready request from the queue. -/
theorem called_of_progress (made : s.Made) (here : s.threads[thread]? = some [])
    (idle : s.inProgress thread = false) (known : ∀ x ∈ s.queue, x < s.posts.length)
    (queued : e ∈ s.queue) (ready : s.isReady e = true) :
    ∃ t, Reaches step (Progresses thread) s t ∧ e ∈ Event.calledOps t.history := by
  induction size : s.queue.length generalizing s with
  | zero =>
    rw [List.length_eq_zero_iff.mp size] at queued
    cases queued
  | succ size' ih =>
    cases first : s.queue.find? s.isReady with
    | none => exact absurd ready (List.find?_eq_none.mp first e queued)
    | some r =>
      obtain ⟨found, skipped, left, whole, waits⟩ := List.find?_eq_some_iff_append.mp first
      obtain ⟨t, reached, threads, quiet, posts, queue, same, called⟩ :=
        calls_first here idle whole (fun x member => by simpa using waits x member) found
      have cb : (s.heap r).cb = r := (made.scheduled (known r (by simp [whole]))).1
      by_cases mine : e = r
      · subst mine
        exact ⟨t, reached, by simp [called, cb]⟩
      · have kept : e ∈ t.queue := by
          have behind : e ∈ skipped ∨ e ∈ left := by simpa [whole, mine] using queued
          rcases behind with before | after
          · simpa [ready] using waits e before
          · simp [queue, after]
        obtain ⟨u, later, done⟩ := ih (made_of_reaches made reached) (by rw [threads, here]) quiet
          (fun x member => by
            rw [posts]
            refine known x ?_
            rw [queue, List.mem_append] at member
            simp only [whole, List.mem_append, List.mem_cons]
            tauto)
          kept (by rw [same e mine, ready]) (by
            rw [queue]
            rw [whole] at size
            simp at size ⊢
            omega)
        exact ⟨u, reached.trans later, done⟩

/-- Every request is in one place: the queue, the hands of a thread, called back, or cancelled.
It is called back at most once, and not at all if a cancel of it returns true; what MPI has
completed can be called back by any thread that is not in a call; and when no thread is, all
unfinished requests are in the queue. -/
structure State.SharedLaw (s : State) : Prop where
  placed : (s.queue : Multiset Nat) + total (total Frame.waiting) s.threads +
    Event.calledOps s.history + Event.canceledOps s.history = Multiset.range s.posts.length
  calls : Event.calledOps s.history =
    total (total Frame.running) s.threads + Event.returnedOps s.history
  once : (Event.calledOps s.history).Nodup
  canceled : ∀ e, (e, CancelResult.returned true) ∈ s.results → e ∉ Event.calledOps s.history
  served : ∀ thread e, s.threads[thread]? = some [] → e ∈ s.queue → s.isReady e = true →
    ∃ t, Reaches step (Progresses thread) s t ∧ e ∈ Event.calledOps t.history
  idle : (∀ stack ∈ s.threads, stack = []) → ∀ e, e < s.posts.length →
    e ∉ Event.calledOps s.history → e ∉ Event.canceledOps s.history → e ∈ s.queue

/-- What carries the law; `lost` is what exceptions have lost. -/
structure State.Tracked (lost : Multiset Nat) (s : State) : Prop where
  made : s.Made
  consistent : (s.books lost).Consistent Post.counter
  told : s.Told
  busy : s.Busy

namespace State.Tracked

theorem initial (threads : Nat) : (State.initial threads).Tracked 0 where
  made := .initial threads
  consistent := by
    rw [State.books_eq]
    exact Ledger.consistent_initial Frame.waiting Frame.running threads
  told := .initial threads
  busy := .initial threads

theorem step {lost : Multiset Nat} (tracked : s.Tracked lost) (effect : Effect s thread act t) :
    ∃ gone, t.Tracked gone ∧ (Handled s ⟨thread, act⟩ → gone = lost) := by
  obtain ⟨gone, entered, kept⟩ := effect_entry tracked.made tracked.consistent effect
  exact ⟨gone, ⟨tracked.made.step effect, tracked.consistent.entries entered,
    tracked.told.step tracked.made tracked.consistent effect, tracked.busy.step effect⟩, kept⟩

theorem lawful (tracked : s.Tracked 0) : s.SharedLaw := by
  have consistent := tracked.consistent
  have placed := consistent.placed
  rw [show (s.books 0).waiting = s.queue + total (total Frame.waiting) s.threads from
    add_zero _] at placed
  refine ⟨placed, consistent.calls, consistent.called_nodup, fun e returned called => ?_,
    fun thread e here queued ready => ?_, fun idle e known uncalled kept => ?_⟩
  · exact consistent.not_withdrawn_of_called called (tracked.told.results e returned)
  · have quiet : s.inProgress thread = false := by
      refine Bool.eq_false_iff.mpr fun busy => ?_
      obtain ⟨_, member, _⟩ := tracked.busy thread [] here busy
      cases member
    refine called_of_progress tracked.made here quiet (fun x member => ?_) queued ready
    exact consistent.lt_of_waiting
      (Multiset.mem_add.mpr (.inl (Multiset.mem_add.mpr (.inl member))))
  · rcases consistent.mem_placed.mp known with waits | called | withdrawn
    · have places : e ∈ s.queue ∨ e ∈ total (total Frame.waiting) s.threads := by
        simpa [State.books, State.waiting] using waits
      rcases places with queued | held
      · exact queued
      · obtain ⟨stack, member, inside⟩ := mem_total.mp held
        rw [idle stack member] at inside
        cases inside
    · exact absurd called uncalled
    · exact absurd withdrawn kept

end State.Tracked

/-- In every run in which no cancel throws the law holds in every state.  A build with `NDEBUG` has
no other runs; in any other build a cancel throws when it meets a request whose MPI handle is null
already. -/
theorem shared_queue_lawful (threads : Nat)
    (reached : Reaches step Handled (State.initial threads) s) : s.SharedLaw := by
  have tracked : s.Tracked 0 := by
    refine reached.invariant (State.Tracked 0) (.initial threads) ?_
    intro before action after tracked handled taken
    obtain ⟨gone, after, kept⟩ := tracked.step (step_effect taken)
    rwa [kept handled] at after
  exact tracked.lawful

/-- One thread has taken both requests from the queue for a cancel that comes too late, while the
other thread finds nothing to do. -/
theorem shared_queue_lawful_during_cancel :
    ∃ s, Reaches step Handled (State.initial 2) s ∧ s.queue = [] ∧
      s.threads = [[.restore 1 [0, 1] false], []] ∧ s.SharedLaw := by
  obtain ⟨s, reached, queue, threads⟩ := exists_of_run step Handled (State.initial 2)
    [⟨0, .post 1 7⟩, ⟨0, .advance⟩, ⟨0, .post 1 8⟩, ⟨0, .advance⟩, ⟨0, .cancel 1⟩, ⟨0, .advance⟩,
      ⟨0, .advance⟩, ⟨1, .progress⟩, ⟨1, .advance⟩, ⟨1, .advance⟩, ⟨1, .advance⟩,
      ⟨0, .answer false⟩, ⟨0, .advance⟩]
    (fun s => s.queue = [] ∧ s.threads = [[.restore 1 [0, 1] false], []]) (by decide +kernel)
  exact ⟨s, reached, queue, threads, shared_queue_lawful 2 reached⟩

/-- A cancel comes too late and returns false.  In a build without `NDEBUG` a second cancel of the
same receive throws, and both receives are gone: no call is in progress, and neither is in the
queue. -/
theorem second_cancel_loses_receives :
    ∃ s, Reaches step (fun _ _ => True) (State.initial 1) s ∧ s.threads = [[]] ∧ s.queue = [] ∧
      s.results = [(1, .threw), (1, .returned false)] ∧ s.posts.length = 2 ∧
      s.history = [] ∧ ¬ s.SharedLaw := by
  obtain ⟨s, reached, threads, queue, results, posts, history⟩ := exists_of_run step
      (fun _ _ => True) (State.initial 1)
    [⟨0, .post 1 7⟩, ⟨0, .advance⟩, ⟨0, .post 1 8⟩, ⟨0, .advance⟩, ⟨0, .cancel 1⟩, ⟨0, .advance⟩,
      ⟨0, .advance⟩, ⟨0, .answer false⟩, ⟨0, .advance⟩, ⟨0, .advance⟩, ⟨0, .advance⟩, ⟨0, .advance⟩,
      ⟨0, .cancel 1⟩, ⟨0, .advance⟩, ⟨0, .advance⟩, ⟨0, .refuse⟩]
    (fun s => s.threads = [[]] ∧ s.queue = [] ∧ s.results = [(1, .threw), (1, .returned false)] ∧
      s.posts.length = 2 ∧ s.history = []) (by decide +kernel)
  refine ⟨s, reached, threads, queue, results, posts, history, fun law => ?_⟩
  have waits := law.idle (by simp [threads]) 0 (by simp [posts]) (by simp [history])
    (by simp [history])
  rw [queue] at waits
  cases waits

end Oomph.Mpi.Shared
