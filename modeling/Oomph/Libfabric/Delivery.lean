import Oomph.Libfabric.Accounting
import Oomph.Libfabric.Stacks

namespace Oomph.Libfabric

open Machine State

variable {config : Config} {s t : State} {thread : Nat} {stack moved rest : List Frame}
  {act : Act} {frame : Frame} {op comm : Nat} {user : Option Nat}

theorem State.consistent_initial (threads : Nat) :
    Books.Consistent Post.counter (State.initial threads).books :=
  Ledger.consistent_initial Frame.waiting Frame.running threads

theorem State.consistent_of_reaches {allowed : State → Action → Prop} {threads : Nat}
    (reached : Reaches (step config) allowed (State.initial threads) s) :
    Books.Consistent Post.counter s.books := by
  have both := reached.invariant
    (fun s => s.Settled ∧ Books.Consistent Post.counter s.books)
    ⟨.initial threads, consistent_initial threads⟩ fun before action after holds _ taken => by
      obtain ⟨settled, consistent⟩ := holds
      have effect := step_effect taken
      exact ⟨settled.effect effect, consistent.entries (effect_entry settled effect)⟩
  exact both.2

def Drain.remaining : Drain → List Drain
  | .sends => [.sends, .recvs, .shared]
  | .recvs => [.recvs, .shared]
  | .shared => [.shared]

namespace State

def InHand (s : State) (op : Nat) : Prop :=
  ∃ stack ∈ s.threads, ∃ via, Frame.invoke op via ∈ stack

theorem inHand_of_top {via : Via} (thread : Nat)
    (found : s.threads[thread]? = some (.invoke op via :: rest)) : s.InHand op :=
  ⟨_, List.mem_of_getElem? found, via, List.mem_cons_self⟩

def Taken (s : State) (op : Nat) : Prop :=
  op ∈ Event.calledOps s.history ∨ s.InHand op

def Awaits (s : State) (comm op : Nat) (stage : Drain) : Prop :=
  ∃ queue ∈ stage.remaining, op ∈ s.cbQueue comm queue

end State

theorem effect_invoke {via : Via} (effect : Effect config s thread act t)
    (found : s.threads[thread]? = some (.invoke op via :: rest)) :
    t.threads = s.threads ∨ t = s.start thread op via rest := by
  cases effect with
  | refuse => exact .inl rfl
  | fail => exact .inl rfl
  | getCommunicator => exact .inl rfl
  | start other path left here =>
    rw [found] at here
    cases here
    exact .inr rfl
  | control act stack moved here control =>
    rw [found] at here
    cases here
    cases control with
    | inject _ _ _ _ _ user => cases user
    | progress _ _ user => cases user
    | contextProgress _ user => cases user
    | destroy _ _ user => cases user
    | nothing _ _ _ _ polls => cases polls
  | post act comm kind rank tag stack here user =>
    rw [found] at here
    cases here
    cases user
  | beginCancel op post stack here user =>
    rw [found] at here
    cases here
    cases user
  | take frame user side ops left here polls =>
    rw [found] at here
    cases here
    cases polls
  | canceled frame user op post left here polls =>
    rw [found] at here
    cases here
    cases polls
  | runInject _ _ _ _ _ here => rw [found] at here; cases here
  | queueInject _ _ _ _ _ here => rw [found] at here; cases here
  | give _ _ _ _ here => rw [found] at here; cases here
  | park _ _ _ _ here => rw [found] at here; cases here
  | returnCallback _ _ _ here => rw [found] at here; cases here
  | pop _ _ _ _ _ _ here => rw [found] at here; cases here
  | destroyed _ _ here => rw [found] at here; cases here
  | withdraw _ _ _ _ here => rw [found] at here; cases here
  | rescan _ _ _ _ here => rw [found] at here; cases here

theorem State.Taken.effect (settled : s.Settled) (taken : s.Taken op)
    (effect : Effect config s thread act t) : t.Taken op := by
  rcases taken with called | ⟨stack, member, via, inside⟩
  · exact .inl (Books.called_of_entries (effect_entry settled effect) called)
  · obtain ⟨index, here⟩ := List.getElem?_of_mem member
    rcases (effect_moves effect).stays (fun _ _ => Restack.tops) here inside with
      ⟨later, still, kept⟩ | ⟨rfl, rest, moved, rfl, now, restack⟩
    · exact .inr ⟨later, List.mem_of_getElem? still, via, kept⟩
    · rcases effect_invoke effect here with same | rfl
      · exact .inr ⟨_, same ▸ member, via, inside⟩
      · have made := (settled.head here).1.made
        left
        simp [State.start, (settled.request made).1]

def Grows (change : CommunicatorImpl → CommunicatorImpl) : Prop :=
  ∀ c, c.sendCbQueue ⊆ (change c).sendCbQueue ∧ c.recvCbQueue ⊆ (change c).recvCbQueue

theorem mem_cbQueue_modifyComm {changed : Nat} {change : CommunicatorImpl → CommunicatorImpl}
    {queue : Drain} (grows : Grows change) (member : op ∈ s.cbQueue comm queue) :
    op ∈ (s.modifyComm changed change).cbQueue comm queue := by
  have grown : ∀ c, c.sendCbQueue ⊆ (if changed = comm then change c else c).sendCbQueue ∧
      c.recvCbQueue ⊆ (if changed = comm then change c else c).recvCbQueue := by
    intro c
    split
    · exact grows c
    · exact ⟨List.Subset.refl _, List.Subset.refl _⟩
  cases queue with
  | shared => exact member
  | sends =>
    cases found : s.comms[comm]? with
    | none => simp [cbQueue, found] at member
    | some c =>
      have inside : op ∈ c.sendCbQueue := by simpa [cbQueue, found] using member
      simpa [cbQueue, found, List.getElem?_modify] using (grown c).1 inside
  | recvs =>
    cases found : s.comms[comm]? with
    | none => simp [cbQueue, found] at member
    | some c =>
      have inside : op ∈ c.recvCbQueue := by simpa [cbQueue, found] using member
      simpa [cbQueue, found, List.getElem?_modify] using (grown c).2 inside

theorem grows_same {change : CommunicatorImpl → CommunicatorImpl}
    (sends : ∀ c, (change c).sendCbQueue = c.sendCbQueue)
    (recvs : ∀ c, (change c).recvCbQueue = c.recvCbQueue) : Grows change := by
  intro c
  rw [sends, recvs]
  exact ⟨List.Subset.refl _, List.Subset.refl _⟩

theorem grows_pushSend (op : Nat) : Grows (.pushSend op) :=
  fun _ => ⟨List.subset_append_left _ _, List.Subset.refl _⟩

theorem grows_pushRecv (op : Nat) : Grows (.pushRecv op) :=
  fun _ => ⟨List.Subset.refl _, List.subset_append_left _ _⟩

theorem mem_cbQueue_incRecursion (via : Via) {queue : Drain}
    (member : op ∈ s.cbQueue comm queue) : op ∈ (s.incRecursion via).cbQueue comm queue := by
  cases via with
  | inject => exact mem_cbQueue_modifyComm (grows_same (fun _ => rfl) fun _ => rfl) member
  | inplace => exact mem_cbQueue_modifyComm (grows_same (fun _ => rfl) fun _ => rfl) member
  | context => cases queue <;> exact member
  | queue => exact member

theorem mem_cbQueue_decRecursion (via : Via) {queue : Drain}
    (member : op ∈ s.cbQueue comm queue) : op ∈ (s.decRecursion via).cbQueue comm queue := by
  cases via with
  | inject => exact mem_cbQueue_modifyComm (grows_same (fun _ => rfl) fun _ => rfl) member
  | inplace => exact mem_cbQueue_modifyComm (grows_same (fun _ => rfl) fun _ => rfl) member
  | context => cases queue <;> exact member
  | queue => exact member

theorem mem_cbQueue_pop {changed next : Nat} {stage queue : Drain} {others : List Nat}
    (waits : s.cbQueue changed stage = next :: others) (member : op ∈ s.cbQueue comm queue) :
    op = next ∨ op ∈ (s.setCbQueue changed stage others).cbQueue comm queue := by
  cases found : s.comms[comm]? with
  | none => cases stage <;> cases queue <;> simp_all [cbQueue, setCbQueue]
  | some c =>
    by_cases here : changed = comm
    · subst here
      cases stage <;> cases queue <;> simp_all [cbQueue, setCbQueue]
    · cases stage <;> cases queue <;> simp_all [cbQueue, setCbQueue]

theorem mem_cbQueue_setCancelQueue (user : Option Nat) (others : List Nat) {queue : Drain}
    (member : op ∈ s.cbQueue comm queue) : op ∈ (s.setCancelQueue user others).cbQueue comm queue := by
  cases user with
  | none => cases queue <;> exact member
  | some changed =>
    exact mem_cbQueue_modifyComm (grows_same (fun _ => by rfl) fun _ => by rfl) member

theorem cbQueue_effect (effect : Effect config s thread act t) {queue : Drain}
    (member : op ∈ s.cbQueue comm queue) : op ∈ t.cbQueue comm queue ∨ t.InHand op := by
  cases effect with
  | getCommunicator =>
    left
    cases found : s.comms[comm]? with
    | none => cases queue <;> simp_all [cbQueue]
    | some c =>
      have inside := (List.getElem?_eq_some_iff.mp found).1
      cases queue <;> simpa [cbQueue, List.getElem?_append_left inside, found] using member
  | runInject => exact .inl (mem_cbQueue_incRecursion _ member)
  | queueInject => exact .inl (mem_cbQueue_modifyComm (grows_pushSend _) member)
  | give user op post => left; cases post.kind <;> cases queue <;> exact member
  | take frame user side => left; cases side <;> cases queue <;> exact member
  | canceled frame user other post =>
    left
    unfold handleCancelled pushCancel
    split
    · exact mem_cbQueue_modifyComm (s := s.takeCanceled other)
        (grows_same (fun _ => rfl) fun _ => rfl) member
    · cases queue <;> exact member
  | park other side post =>
    left
    unfold pushCb
    split
    · cases queue with
      | shared => exact List.mem_append_left _ member
      | sends => exact member
      | recvs => exact member
    · exact mem_cbQueue_modifyComm (grows_pushSend _) member
    · exact mem_cbQueue_modifyComm (grows_pushRecv _) member
  | start other via => exact .inl (mem_cbQueue_incRecursion via member)
  | returnCallback other via =>
    left
    unfold State.returnCallback
    split
    · exact mem_cbQueue_decRecursion (s := s.log _) _ member
    · exact mem_cbQueue_decRecursion (s := s.finishCb other) via member
  | pop changed stage destroying next others rest found waits =>
    rcases mem_cbQueue_pop waits member with rfl | stays
    · have threads := (s.sameRecords_setCbQueue changed stage others).threads
      have inside : thread < (s.setCbQueue changed stage others).threads.length := by
        rw [threads]
        exact (List.getElem?_eq_some_iff.mp found).1
      exact .inr (inHand_of_top thread (List.getElem?_set_self inside))
    · exact .inl stays
  | destroyed => exact .inl (mem_cbQueue_modifyComm (grows_same (fun _ => by rfl) fun _ => by rfl) member)
  | withdraw user other others => exact .inl (mem_cbQueue_setCancelQueue (s := s) user others member)
  | rescan user other others => exact .inl (mem_cbQueue_setCancelQueue user others member)
  | _ => left; cases queue <;> exact member

/-- The thread is inside a top-level `progress` of the communicator that has come to
this queue. -/
def State.Draining (s : State) (thread comm : Nat) (stage : Drain) : Prop :=
  ∃ above, s.threads[thread]? = some (above ++ [.call (some comm) (.clear stage false)])

private theorem restack_clear {stage : Drain}
    (restack : Restack config s thread act [.call (some comm) (.clear stage false)] moved) :
    (∃ above, moved = above ++ [.call (some comm) (.clear stage false)]) ∨
      s.cbQueue comm stage = [] ∧ (stage = .shared ∨
        ∃ next, stage.next = some next ∧ moved = [.call (some comm) (.clear next false)]) := by
  cases restack with
  | control act stack moved control =>
    cases control with
    | inject _ _ _ _ _ user => cases user
    | progress _ _ user => cases user
    | contextProgress _ user => cases user
    | destroy _ _ user => cases user
    | again => exact .inl ⟨[_], rfl⟩
    | nothing _ _ _ _ polls => cases polls
    | nextQueue comm stage next destroying rest empty follows =>
      exact .inr ⟨empty, .inr ⟨next, follows, rfl⟩⟩
    | cleared comm rest empty => exact .inr ⟨empty, .inl rfl⟩
  | post _ _ _ user => cases user
  | cancel _ _ _ user => cases user
  | take _ _ _ _ _ _ polls => cases polls
  | canceled _ _ _ _ _ polls => cases polls
  | pop => exact .inl ⟨[_], rfl⟩

theorem State.Draining.effect {active : Nat} {stage : Drain} (draining : s.Draining thread comm stage)
    (effect : Effect config s active act t) :
    t.Draining thread comm stage ∨ s.cbQueue comm stage = [] ∧ (stage = .shared ∨
      ∃ next, stage.next = some next ∧ t.Draining thread comm next) := by
  obtain ⟨above, found⟩ := draining
  rcases (effect_moves effect).under (fun _ _ => Restack.tops) found with
    ⟨kept, still⟩ | ⟨rfl, rfl, moved, now, restack⟩
  · exact .inl ⟨kept, still⟩
  · rcases restack_clear restack with ⟨kept, rfl⟩ | ⟨empty, last | ⟨next, follows, rfl⟩⟩
    · exact .inl ⟨kept, now⟩
    · exact .inr ⟨empty, .inl last⟩
    · exact .inr ⟨empty, .inr ⟨next, follows, [], now⟩⟩

/-- The operation has been taken, or the drain has still to come to its queue. -/
def State.Delivers (s : State) (thread comm op : Nat) : Prop :=
  s.Taken op ∨ ∃ stage, s.Draining thread comm stage ∧ s.Awaits comm op stage

theorem Drain.remaining_of_next {stage next queue : Drain} (follows : stage.next = some next)
    (member : queue ∈ stage.remaining) (different : queue ≠ stage) : queue ∈ next.remaining := by
  cases stage <;> cases follows <;> cases queue <;> simp_all [Drain.remaining]

theorem State.Delivers.effect {active : Nat} (settled : s.Settled)
    (delivers : s.Delivers thread comm op) (effect : Effect config s active act t) :
    t.Delivers thread comm op := by
  rcases delivers with taken | ⟨stage, draining, queue, member, waits⟩
  · exact .inl (taken.effect settled effect)
  · rcases cbQueue_effect effect waits with stays | inHand
    · rcases draining.effect effect with still | ⟨empty, last | ⟨next, follows, advanced⟩⟩
      · exact .inr ⟨stage, still, queue, member, stays⟩
      · subst last
        obtain rfl : queue = .shared := by simpa [Drain.remaining] using member
        simp [empty] at waits
      · have different : queue ≠ stage := by
          rintro rfl
          simp [empty] at waits
        exact .inr ⟨next, advanced, queue, Drain.remaining_of_next follows member different, stays⟩
    · exact .inl (.inr inHand)

def Act.isCancel : Act → Bool
  | .cancel _ _ => true
  | _ => false

def NoCancel (_ : State) (action : Action) : Prop :=
  action.act.isCancel = false

instance (s : State) (action : Action) : Decidable (NoCancel s action) :=
  inferInstanceAs (Decidable (action.act.isCancel = false))

def Frame.isCancel : Frame → Bool
  | .call _ (.cancel _) => true
  | .call _ (.scan _) => true
  | _ => false

structure State.Uncanceled (s : State) : Prop where
  frames : ∀ stack ∈ s.threads, ∀ frame ∈ stack, frame.isCancel = false
  history : Event.canceledOps s.history = 0

private theorem plain_afterPoll_cancel {side : Side} (config : Config) (count : Nat)
    (polls : frame.poll = some (user, side)) (plain : ∀ other ∈ frame :: rest, other.isCancel = false) :
    ∀ other ∈ frame.afterPoll config count ++ rest, other.isCancel = false := by
  obtain ⟨first, others⟩ := List.forall_mem_cons.mp plain
  refine List.forall_mem_append.mpr ⟨?_, others⟩
  unfold Frame.poll at polls
  split at polls
  · rename_i side retry
    cases side with
    | sends => simp [Frame.afterPoll, Frame.isCancel]
    | recvs =>
      simp only [Frame.afterPoll]
      split <;> simp [Frame.isCancel]
  · simp [Frame.afterPoll, Frame.isCancel]
  · cases first
  · cases polls

theorem Restack.uncanceled (restack : Restack config s thread act stack moved)
    (permitted : act.isCancel = false) (plain : ∀ frame ∈ stack, frame.isCancel = false) :
    ∀ frame ∈ moved, frame.isCancel = false := by
  cases restack with
  | control act stack moved control =>
    cases control with
    | nothing frame user side rest polls => exact plain_afterPoll_cancel config 0 polls plain
    | _ => simp_all [Frame.isCancel]
  | cancel => cases permitted
  | give act user op kind rest =>
    have others := (List.forall_mem_cons.mp plain).2
    cases kind with
    | sharedRecv => exact List.forall_mem_cons.mpr ⟨rfl, others⟩
    | _ => exact others
  | take act frame user side ops rest polls =>
    exact List.forall_mem_cons.mpr ⟨rfl, plain_afterPoll_cancel config _ polls plain⟩
  | canceled act frame user side rest polls => exact plain_afterPoll_cancel config 0 polls plain
  | _ => simp_all [Frame.isCancel]

theorem State.Uncanceled.effect (uncanceled : s.Uncanceled) (permitted : act.isCancel = false)
    (effect : Effect config s thread act t) : t.Uncanceled := by
  constructor
  · exact (effect_moves effect).forall_mem (fun _ _ restack => restack.uncanceled permitted)
      uncanceled.frames
  · have history := uncanceled.history
    cases effect with
    | give user op post => rwa [setStack_history, (sameRecords_give op post.kind).history]
    | take frame user side ops => rwa [setStack_history, (sameRecords_take side ops).history]
    | canceled frame user op post =>
      rwa [setStack_history, (sameRecords_handleCancelled op post).history]
    | park op side post => rwa [setStack_history, (sameRecords_pushCb post side op).history]
    | start op via => simpa [State.start] using history
    | returnCallback op via => cases via <;> simpa [State.returnCallback] using history
    | pop comm stage destroying op queue =>
      rwa [setStack_history, (sameRecords_setCbQueue comm stage queue).history]
    | withdraw user op queue rest found =>
      have plain := uncanceled.frames _ (List.mem_of_getElem? found) _ List.mem_cons_self
      cases plain
    | rescan user op queue =>
      rwa [setStack_history, (sameRecords_setCancelQueue user queue).history]
    | _ => exact history

theorem State.Uncanceled.of_reaches {threads : Nat}
    (reached : Reaches (step config) NoCancel (State.initial threads) s) : s.Uncanceled := by
  refine reached.invariant State.Uncanceled ⟨?_, rfl⟩ ?_
  · intro stack member
    rw [List.eq_of_mem_replicate member]
    simp
  · intro before action after uncanceled permitted taken
    exact uncanceled.effect permitted (step_effect taken)

/-- The counter of a communicator counts its requests whose callback has not returned. -/
theorem scheduled_eq_card {threads : Nat}
    (reached : Reaches (step config) NoCancel (State.initial threads) s) (comm : Nat) (kind : Kind)
    (own : kind ≠ .sharedRecv) :
    s.scheduled (kind.counter comm) = (((Finset.range s.posts.length).filter fun op =>
      requestOf s.posts op = some (comm, kind) ∧
        op ∉ Event.returnedOps s.history).card : Nat) := by
  have counted := (consistent_of_reaches reached).outstanding_eq_card (kind.counter comm)
  have none := (Uncanceled.of_reaches reached).history
  refine counted.trans ?_
  simp only [State.books, none, Multiset.notMem_zero, not_false_eq_true, and_true,
    keyOf_counter_eq own]

/-- The completion of the operation has been handled: it waits in a callback queue, or
a thread has taken it. -/
def State.Dispatched (s : State) (op : Nat) : Prop :=
  s.Taken op ∨ ∃ comm queue, op ∈ s.cbQueue comm queue

def During (thread : Nat) (s : State) (action : Action) : Prop :=
  NoCancel s action ∧ s.threads[thread]? ≠ some []

instance (thread : Nat) (s : State) (action : Action) : Decidable (During thread s action) :=
  inferInstanceAs (Decidable (_ ∧ _))

theorem step_progress (idle : s.threads[thread]? = some [])
    (called : step config s ⟨thread, .progress comm⟩ = some t) :
    s.usable thread comm = true ∧ t = s.setStack thread
      [.work (some comm) .sends false, .call (some comm) (.clear .sends false)] := by
  unfold step at called
  split at called
  · cases called
  · simp only [idle, inUserCode, if_true, State.userCall, Option.ite_none_right_eq_some,
      Option.some.injEq] at called
    exact ⟨called.1, called.2.symm⟩

theorem posts_of_reaches {allowed : State → Action → Prop} {post : Post} (settled : s.Settled)
    (reached : Reaches (step config) allowed s t) (posted : s.posts[op]? = some post) :
    t.posts[op]? = some post := by
  have both := reached.invariant (fun t => t.Settled ∧ t.posts[op]? = some post)
    ⟨settled, posted⟩ fun before action after holds _ taken => by
      obtain ⟨settled, posted⟩ := holds
      have effect := step_effect taken
      obtain ⟨more, grown⟩ := Books.attrs_of_entries (effect_entry settled effect)
      have grown : before.posts ++ more = after.posts := grown
      refine ⟨settled.effect effect, ?_⟩
      rw [← grown, List.getElem?_append_left (List.getElem?_eq_some_iff.mp posted).1, posted]
  exact both.2

/-- Callbacks of operations that are not shared run inside a call on the communicator
that posted them. -/
theorem callback_inside {threads : Nat} {allowed : State → Action → Prop}
    (reached : Reaches (step config) allowed (State.initial threads) s) (above : List Frame)
    {below : List Frame} {post : Post} (member : above ++ frame :: below ∈ s.threads)
    (fits : frame.needs = (userOf post).map some) (own : post.kind ≠ .sharedRecv) :
    ∃ code, Frame.call (some post.comm) code ∈ below := by
  have inside := inside_of_reaches reached _ member
  rw [userOf_of_ne own] at fits
  obtain ⟨caller, called, serving⟩ := inside.served fits
  cases caller with
  | call user code =>
    cases serving
    exact ⟨code, called⟩
  | _ => cases serving

theorem State.setStack_cbQueue (thread : Nat) (stack : List Frame) (queue : Drain) :
    (s.setStack thread stack).cbQueue comm queue = s.cbQueue comm queue := by
  cases queue <;> rfl

theorem awaits_of_queued (settled : s.Settled) {post : Post} {other : Nat} {queue : Drain}
    (posted : s.posts[op]? = some post) (member : op ∈ s.cbQueue other queue) :
    s.Awaits post.comm op .sends := by
  have owned := ((settled.belongs_cbQueue member).of_found posted).2
  by_cases own : queue = .shared
  · subst own
    exact ⟨.shared, by simp [Drain.remaining], member⟩
  · have same : post.comm = other := by
      by_cases shared : post.kind = .sharedRecv
      · cases queue <;> simp_all [userOf, drainUser]
      · cases queue <;> simp_all [userOf_of_ne, drainUser]
    exact ⟨queue, by cases queue <;> simp [Drain.remaining], same ▸ member⟩

/-- When a top-level `progress` returns, the operations of its communicator whose
completions had been handled before are taken. -/
theorem taken_of_progress {begun : State} {post : Post} (settled : s.Settled)
    (idle : s.threads[thread]? = some [])
    (called : step config s ⟨thread, .progress post.comm⟩ = some begun)
    (ran : Reaches (step config) (During thread) begun t)
    (returned : t.threads[thread]? = some []) (posted : s.posts[op]? = some post)
    (dispatched : s.Dispatched op) : t.Taken op := by
  have settledBegun := settled.effect (step_effect called)
  have start : begun.Delivers thread post.comm op := by
    rcases dispatched with taken | ⟨other, queue, member⟩
    · exact .inl (taken.effect settled (step_effect called))
    · obtain ⟨_, rfl⟩ := step_progress idle called
      have inside := (List.getElem?_eq_some_iff.mp idle).1
      refine .inr ⟨.sends, ⟨[_], List.getElem?_set_self inside⟩, ?_⟩
      rw [← setStack_cbQueue thread] at member
      exact awaits_of_queued settledBegun posted member
  have delivered := ran.invariant (fun s => s.Settled ∧ s.Delivers thread post.comm op)
    ⟨settledBegun, start⟩ fun before action after holds _ taken => by
      obtain ⟨settled, delivers⟩ := holds
      exact ⟨settled.effect (step_effect taken), delivers.effect settled (step_effect taken)⟩
  rcases delivered.2 with taken | ⟨stage, ⟨above, active⟩, _⟩
  · exact taken
  · simp [returned] at active

theorem top_of_inHand {threads : Nat} {allowed : State → Action → Prop}
    (reached : Reaches (step config) allowed (State.initial threads) s) (inHand : s.InHand op) :
    ∃ (thread : Nat) (via : Via) (below : List Frame),
      s.threads[thread]? = some (.invoke op via :: below) := by
  obtain ⟨stack, member, via, inside⟩ := inHand
  have prompt := prompt_of_reaches reached stack member
  obtain ⟨thread, found⟩ := List.getElem?_of_mem member
  cases stack with
  | nil => cases inside
  | cons first below =>
    rcases List.mem_cons.mp inside with rfl | later
    · exact ⟨thread, via, below, found⟩
    · cases prompt _ later

theorem ownerOf_of_reaches {allowed : State → Action → Prop} {owner : Nat}
    (reached : Reaches (step config) allowed s t) (owned : s.ownerOf comm = some owner) :
    t.ownerOf comm = some owner :=
  reached.invariant (fun s => s.ownerOf comm = some owner) owned
    fun _ _ _ owned _ taken => effect_owner (step_effect taken) owned

theorem shared_of_inHand {threads other : Nat} {allowed : State → Action → Prop} {post : Post}
    {via : Via} (reached : Reaches (step config) allowed (State.initial threads) s)
    (found : s.threads[other]? = some (.invoke op via :: rest)) (posted : s.posts[op]? = some post)
    (owner : s.ownerOf post.comm = some thread) (different : other ≠ thread) :
    post.kind = .sharedRecv := by
  by_contra own
  have settled := Settled.of_reaches reached
  have fits := ((settled.head found).1.of_found posted).2
  have needs : (Frame.invoke op via).needs = (userOf post).map some := by rw [fits]; rfl
  obtain ⟨code, called⟩ := callback_inside reached [] (List.mem_of_getElem? found) needs own
  have serves : Serves Frame.serves (.invoke op via :: rest) (some post.comm) :=
    ⟨.call (some post.comm) code, List.mem_cons_of_mem _ called, rfl⟩
  have owned := Owned.of_reaches reached other _ post.comm found serves
  rw [owner] at owned
  cases owned
  exact different rfl

/-- In every state of every run without cancel: callbacks start at most once, those of
operations that are not shared inside a call on their communicator, and the counters of
a communicator count its requests.  When a top-level `progress` returns, the operations
of its communicator whose completions had been handled before it began have been called,
except for a shared receive that another thread has taken and calls next. -/
theorem completions_delivered (config : Config) (threads : Nat) {s : State}
    (reached : Reaches (step config) NoCancel (State.initial threads) s) :
    (Event.calledOps s.history).Nodup ∧
    (∀ above op via below post, above ++ Frame.callback op via :: below ∈ s.threads →
      s.posts[op]? = some post → post.kind ≠ .sharedRecv →
      ∃ code, Frame.call (some post.comm) code ∈ below) ∧
    (∀ thread begun after op post, s.threads[thread]? = some [] → s.posts[op]? = some post →
      step config s ⟨thread, .progress post.comm⟩ = some begun →
      Reaches (step config) (During thread) begun after → after.threads[thread]? = some [] →
      s.Dispatched op →
      op ∈ Event.calledOps after.history ∨ post.kind = .sharedRecv ∧
        ∃ (other : Nat) (via : Via) (below : List Frame), other ≠ thread ∧
          after.threads[other]? = some (.invoke op via :: below)) ∧
    ∀ comm,
      s.scheduled (.sends comm) = (((Finset.range s.posts.length).filter fun op =>
        requestOf s.posts op = some (comm, .send) ∧
          op ∉ Event.returnedOps s.history).card : Nat) ∧
      s.scheduled (.recvs comm) = (((Finset.range s.posts.length).filter fun op =>
        requestOf s.posts op = some (comm, .recv) ∧
          op ∉ Event.returnedOps s.history).card : Nat) := by
  have settled := Settled.of_reaches reached
  refine ⟨(consistent_of_reaches reached).called_nodup, ?_, ?_, fun comm =>
    ⟨scheduled_eq_card reached comm .send nofun, scheduled_eq_card reached comm .recv nofun⟩⟩
  · intro above op via below post member posted own
    have fits := settled.frames _ member (.callback op via) (by simp)
    have needs : (Frame.callback op via).needs = (userOf post).map some := by
      rw [(PostedAs.of_found fits posted).2]
      rfl
    exact callback_inside reached above member needs own
  · intro thread begun after op post idle posted called ran returned dispatched
    have reachedAfter : Reaches (step config) NoCancel (State.initial threads) after :=
      (reached.extend (by rfl) called).trans (ran.mono fun _ _ => And.left)
    rcases taken_of_progress settled idle called ran returned posted dispatched with
      done | inHand
    · exact .inl done
    · obtain ⟨other, via, below, found⟩ := top_of_inHand reachedAfter inHand
      have different : other ≠ thread := by
        rintro rfl
        rw [returned] at found
        cases found
      have owner : after.ownerOf post.comm = some thread :=
        ownerOf_of_reaches (.head ⟨_, rfl, called⟩ (ran.mono fun _ _ => And.left))
          (ownerOf_of_usable (step_progress idle called).1)
      have kept : after.posts[op]? = some post :=
        posts_of_reaches settled (.head ⟨_, rfl, called⟩ (ran.mono fun _ _ => And.left)) posted
      exact .inr ⟨shared_of_inHand reachedAfter found kept owner different,
        other, via, below, different, found⟩

/-- The receive of one communicator completes while another one polls, and is called by
the next `progress` of its own communicator. -/
theorem completions_delivered_to_owner :
    ∃ s begun after, Reaches (step ⟨20, 32, 64⟩) NoCancel (State.initial 2) s ∧
      s.cbQueue 1 .recvs = [0] ∧ step ⟨20, 32, 64⟩ s ⟨1, .progress 1⟩ = some begun ∧
      Reaches (step ⟨20, 32, 64⟩) (During 1) begun after ∧
      0 ∈ Event.calledOps after.history := by
  obtain ⟨s, begun, after, reached, called, during, queued, idle, posted, returned⟩ :=
    exists_call_of_run (step ⟨20, 32, 64⟩) NoCancel (State.initial 2)
      [⟨0, .getCommunicator⟩, ⟨1, .getCommunicator⟩, ⟨1, .recv 1 0 7⟩, ⟨1, .fi .success⟩,
        ⟨0, .progress 0⟩, ⟨0, .read .nothing⟩, ⟨0, .read (.entries [0])⟩, ⟨0, .advance⟩,
        ⟨0, .advance⟩] ⟨1, .progress 1⟩ (fun _ => During 1)
      [⟨1, .read .nothing⟩, ⟨1, .read .nothing⟩, ⟨1, .advance⟩, ⟨1, .advance⟩, ⟨1, .advance⟩,
        ⟨1, .callbackReturns⟩, ⟨1, .advance⟩, ⟨1, .advance⟩]
      (fun s after => s.cbQueue 1 .recvs = [0] ∧ s.threads[1]? = some [] ∧
        s.posts[0]? = some ⟨1, .recv, 0, 7, false⟩ ∧ after.threads[1]? = some [])
      (by decide +kernel)
  have dispatched : s.Dispatched 0 := .inr ⟨1, .recvs, by simp [queued]⟩
  obtain ⟨_, _, delivered, _⟩ := completions_delivered ⟨20, 32, 64⟩ 2 reached
  rcases delivered 1 begun after 0 _ idle posted called during returned dispatched with
    done | ⟨shared, _⟩
  · exact ⟨s, begun, after, reached, queued, called, during, done⟩
  · cases shared

def nestedReceive (op : Nat) : List Action :=
  [⟨0, .sharedRecv 0 1 7⟩, ⟨0, .fi .success⟩, ⟨0, .read (.entries [op])⟩, ⟨0, .advance⟩,
    ⟨0, .advance⟩]

/-- Callbacks of shared receives nest until the recursion limit is reached, so that the
shared receive of the second communicator is queued.  While the second thread makes
progress, the first one takes it from the queue, and does not call it before the
`progress` has returned. -/
theorem shared_receive_uncalled_after_progress :
    ∃ s begun after, Reaches (step ⟨20, 32, 64⟩) NoCancel (State.initial 2) s ∧
      s.threads[1]? = some [] ∧ s.posts[21]? = some ⟨1, .sharedRecv, 0, 9, false⟩ ∧
      s.Dispatched 21 ∧ step ⟨20, 32, 64⟩ s ⟨1, .progress 1⟩ = some begun ∧
      Reaches (step ⟨20, 32, 64⟩) (During 1) begun after ∧ after.threads[1]? = some [] ∧
      21 ∉ Event.calledOps after.history := by
  obtain ⟨s, begun, after, reached, called, during, idle, posted, queued, returned, uncalled⟩ :=
    exists_call_of_run (step ⟨20, 32, 64⟩) NoCancel (State.initial 2)
      ([⟨0, .getCommunicator⟩, ⟨1, .getCommunicator⟩] ++ (List.range 21).flatMap nestedReceive ++
        [⟨1, .sharedRecv 1 0 9⟩, ⟨1, .fi .success⟩, ⟨1, .read (.entries [21])⟩, ⟨1, .advance⟩,
          ⟨1, .advance⟩, ⟨1, .advance⟩, ⟨1, .advance⟩])
      ⟨1, .progress 1⟩ (fun _ => During 1)
      [⟨0, .progress 0⟩, ⟨0, .read .nothing⟩, ⟨0, .read .nothing⟩, ⟨0, .advance⟩, ⟨0, .advance⟩,
        ⟨0, .advance⟩, ⟨1, .read .nothing⟩, ⟨1, .read .nothing⟩, ⟨1, .advance⟩, ⟨1, .advance⟩,
        ⟨1, .advance⟩]
      (fun s after => s.threads[1]? = some [] ∧ s.posts[21]? = some ⟨1, .sharedRecv, 0, 9, false⟩ ∧
        s.recvCbQueue = [21] ∧ after.threads[1]? = some [] ∧ 21 ∉ Event.calledOps after.history)
      (by decide +kernel)
  have dispatched : s.Dispatched 21 := .inr ⟨1, .shared, by simp [cbQueue, queued]⟩
  exact ⟨s, begun, after, reached, idle, posted, dispatched, called, during, returned, uncalled⟩

end Oomph.Libfabric
