import Oomph.Ucx.Delivery

namespace Oomph.Ucx

open Machine State

/-- The steps of send, receive and progress in which UCX reports no error for a receive. -/
def ErrorFree (s : State) (action : Action) : Prop :=
  action.act.isCancel = false ∧ s.failsRecv action = false

instance (s : State) (action : Action) : Decidable (ErrorFree s action) :=
  inferInstanceAs (Decidable (_ ∧ _))

variable {config : Config} {s t : State} {thread : Nat} {stack moved rest : List Frame}
  {act : Act} {frame : Frame} {op other comm ptr : Nat} {user : Option Nat} {request : UcxRequest}
  {stage : Drain}

def Frame.locked : Frame → Bool
  | .call _ (.post _ _ _) => true
  | .call _ (.recvLoop _) => true
  | _ => false

/-- The thread that holds the lock is inside the code that it guards. -/
def State.Guarded (s : State) : Prop :=
  ∀ thread, s.mutex = some thread →
    ∃ frame rest, s.threads[thread]? = some (frame :: rest) ∧ frame.locked = true

theorem control_unlocked (safe : config.threadSafe = true)
    (accepted : s.failsRecv ⟨thread, act⟩ = false)
    (found : s.threads[thread]? = some (frame :: rest))
    (control : Control config s thread act (frame :: rest) moved) : frame.locked = false := by
  have outside : inUserCode (frame :: rest) = true → frame.locked = false := by
    intro user
    cases frame with
    | callback => rfl
    | _ => cases user
  cases control with
  | send _ _ _ _ user => exact outside user
  | recv _ _ _ _ _ _ user => exact outside user
  | progress _ _ user => exact outside user
  | contextProgress _ user => exact outside user
  | recvError =>
    rw [failsRecv_errorPtr found] at accepted
    cases accepted
  | recvProgressed _ _ _ _ single =>
    rw [safe] at single
    cases single
  | _ => rfl

namespace State.Guarded

private theorem move (guarded : s.Guarded) (found : s.threads[thread]? = some stack)
    (threads : t.threads = s.threads.set thread moved) (mutex : t.mutex = s.mutex)
    (free : ∀ frame rest, stack = frame :: rest → frame.locked = false) : t.Guarded := by
  intro holder held
  rw [mutex] at held
  obtain ⟨frame, rest, here, locked⟩ := guarded holder held
  refine ⟨frame, rest, ?_, locked⟩
  rw [threads, List.getElem?_set_ne, here]
  rintro rfl
  rw [found] at here
  cases here
  rw [free frame rest rfl] at locked
  cases locked

private theorem same (guarded : s.Guarded) (threads : t.threads = s.threads)
    (mutex : t.mutex = s.mutex) : t.Guarded := by
  intro holder held
  rw [threads]
  exact guarded holder (mutex ▸ held)

private theorem free (mutex : t.mutex = none) : t.Guarded := by
  intro holder held
  rw [mutex] at held
  cases held

theorem initial (threads : Nat) : (State.initial threads).Guarded :=
  free rfl

theorem effect (guarded : s.Guarded) (safe : config.threadSafe = true)
    (accepted : s.failsRecv ⟨thread, act⟩ = false) (effect : Effect config s thread act t) :
    t.Guarded := by
  have plain : ∀ {frame : Frame} {rest : List Frame}, frame.locked = false →
      ∀ first others, frame :: rest = first :: others → first.locked = false := by
    rintro frame rest unlocked first others ⟨⟩
    exact unlocked
  cases effect with
  | stale => exact guarded.same rfl rfl
  | nullSend => exact guarded.same rfl rfl
  | badFree => exact guarded.same rfl rfl
  | getCommunicator => exact guarded.same rfl rfl
  | control act stack moved found control =>
    refine guarded.move found rfl rfl fun frame rest shape => ?_
    subst shape
    exact control_unlocked safe accepted found control
  | lock stack moved found free locks =>
    intro holder held
    cases held
    have inside := (List.getElem?_eq_some_iff.mp found).1
    cases locks <;> exact ⟨_, _, List.getElem?_set_self inside, rfl⟩
  | unlock => exact free rfl
  | submitRecv => exact free (by simp [State.submitRecv, safe])
  | early => exact free (by simp [safe])
  | truncated => cases accepted
  | recvFailed user code request rest found receives member worker =>
    rw [failsRecv_failed worker] at accepted
    cases accepted
  | recvDirect user code request op shared rest found receives member worker data single =>
    rw [safe] at single
    cases single
  | recvOwn => exact guarded.same rfl rfl
  | recvShared => exact guarded.same rfl rfl
  | recvEmpty => exact guarded.same rfl rfl
  | runSend comm dst tag c rest found => exact guarded.move found rfl rfl (plain rfl)
  | queueSend comm dst tag c rest found => exact guarded.move found rfl rfl (plain rfl)
  | submitSend comm dst tag ptr rest found => exact guarded.move found rfl rfl (plain rfl)
  | runEarly comm kind src tag rest found => exact guarded.move found rfl rfl (plain rfl)
  | deferEarly comm kind src tag ptr rest found => exact guarded.move found rfl rfl (plain rfl)
  | sendOk comm request op rest found => exact guarded.move found rfl rfl (plain rfl)
  | sendFailed comm request rest found => exact guarded.move found rfl rfl (plain rfl)
  | start op via rest found => exact guarded.move found rfl rfl (plain rfl)
  | returnCallback op via rest found =>
    unfold State.returnCallback
    split <;> exact guarded.move found rfl rfl (plain rfl)
  | release request rest found => exact guarded.move found rfl rfl (plain rfl)
  | pop user stage op queue rest found => exact guarded.move found rfl rfl (plain rfl)

end State.Guarded

structure State.Ordered (s : State) : Prop where
  inside : ∀ stack ∈ s.threads, Inside stack
  indirect : ∀ stack ∈ s.threads, ∀ frame ∈ stack, frame.isDirect = false
  owned : s.Owned

namespace State.Ordered

theorem initial (threads : Nat) : (State.initial threads).Ordered := by
  have empty : ∀ stack ∈ (State.initial threads).threads, stack = [] :=
    fun _ member => List.eq_of_mem_replicate member
  refine ⟨fun stack member => ?_, fun stack member frame inside => ?_, .initial threads⟩
  · rw [empty stack member]
    exact ⟨trivial, nofun⟩
  · rw [empty stack member] at inside
    cases inside

theorem effect (ordered : s.Ordered) (safe : config.threadSafe = true)
    (effect : Effect config s thread act t) : t.Ordered where
  inside := (effect_moves effect).forall_mem (fun _ _ restack => restack.inside) ordered.inside
  indirect := (effect_moves effect).forall_mem (fun _ _ restack => restack.indirect safe)
    ordered.indirect
  owned := ordered.owned.effect effect

end State.Ordered

/-- Where a callback does not come from `recv_callback`, it is called for its own user. -/
theorem Via.caller_eq_user {via : Via} (indirect : (Frame.callback op via).isDirect = false) :
    via.caller = via.user := by
  cases via with
  | received => cases indirect
  | _ => rfl

theorem callback_inside (plain : s.Plain) (ordered : s.Ordered) {above below : List Frame} {via : Via}
    {post : Post} (member : above ++ Frame.callback op via :: below ∈ s.threads)
    (posted : s.posts[op]? = some post) (own : post.kind ≠ .sharedRecv) :
    ∃ code, Frame.call (some post.comm) code ∈ below := by
  have inside : Frame.callback op via ∈ above ++ Frame.callback op via :: below := by simp
  have fits := (plain.settled.frames _ member _ inside).of_found posted
  have needs : (Frame.callback op via).needs = some post.comm := by
    rw [Frame.needs, Via.caller_eq_user (ordered.indirect _ member _ inside), ← fits.2,
      userOf_of_ne own]
  obtain ⟨caller, within, serves⟩ := (ordered.inside _ member).sheltered.served needs
  cases caller with
  | call user code =>
    cases serves
    exact ⟨code, within⟩
  | _ => cases serves

def Code.upTo (comm : Nat) (stage : Drain) : Code → Prop
  | .sendLoop => True
  | .tryLock _ => True
  | .recvLoop _ => True
  | .clear (.sends asked) => asked = comm
  | .clear (.recvs asked) => asked = comm
  | .clear .shared => stage = .shared
  | _ => False

/-- The outermost call of a thread is a `progress` that has not left the drain of a queue. -/
def State.Draining (s : State) (thread comm : Nat) (stage : Drain) : Prop :=
  ∃ above code, s.threads[thread]? = some (above ++ [.call (some comm) code]) ∧ code.upTo comm stage

/-- The outermost frame of a `progress` goes on, or the queue was found empty. -/
theorem restack_draining {code : Code} (safe : config.threadSafe = true)
    (accepted : s.failsRecv ⟨thread, act⟩ = false) (target : stage = .recvs comm ∨ stage = .shared)
    (upTo : code.upTo comm stage)
    (restack : Restack config s thread act [.call (some comm) code] moved) :
    (∃ above code, moved = above ++ [.call (some comm) code] ∧ code.upTo comm stage) ∨
      s.reqQueue stage = [] := by
  have next : ∀ {code : Code}, moved = [.call (some comm) code] → code.upTo comm stage →
      (∃ above code, moved = above ++ [.call (some comm) code] ∧ code.upTo comm stage) ∨
        s.reqQueue stage = [] := fun shape upTo => .inl ⟨[], _, shape, upTo⟩
  have pushed : ∀ above : List Frame, moved = above ++ [.call (some comm) code] →
      (∃ above code, moved = above ++ [.call (some comm) code] ∧ code.upTo comm stage) ∨
        s.reqQueue stage = [] := fun _ shape => .inl ⟨_, _, shape, upTo⟩
  have noPost : code.posting = true → False := by
    intro posting
    cases code <;> first | exact upTo | cases posting
  cases restack with
  | control stack moved control =>
    cases control with
    | sendProgressed _ more =>
      cases more with
      | true => exact next rfl upTo
      | false =>
        simp only [State.afterSendLoop, safe, if_true, Bool.false_eq_true, if_false]
        exact .inl ⟨[], .tryLock 10, rfl, trivial⟩
    | busy => exact next rfl trivial
    | noMoreTries => exact next rfl rfl
    | nextQueue _ asked following _ empty follows =>
      cases asked with
      | sends asked =>
        obtain rfl : asked = comm := upTo
        simp only [Drain.next, safe, if_true, Option.some.injEq] at follows
        subst follows
        exact next rfl rfl
      | recvs asked =>
        obtain rfl : asked = comm := upTo
        cases follows
        rcases target with rfl | rfl
        · exact .inr empty
        · exact next rfl rfl
      | shared => cases follows
    | cleared _ _ empty =>
      obtain rfl : stage = .shared := upTo
      exact .inr empty
    | recvProgressed _ _ _ _ single =>
      rw [safe] at single
      cases single
    | send _ _ _ _ user => cases user
    | recv _ _ _ _ _ _ user => cases user
    | progress _ _ user => cases user
    | contextProgress _ user => cases user
    | _ => exact absurd upTo id
  | lock stack moved locks =>
    cases locks with
    | recv => exact absurd upTo id
    | progress => exact next rfl trivial
  | unlock _ tries more =>
    cases more with
    | true => exact next rfl trivial
    | false => exact next rfl rfl
  | posted _ _ _ posting => exact (noPost posting).elim
  | early _ _ _ _ posting => exact (noPost posting).elim
  | inplace _ _ _ _ _ posting => exact (noPost posting).elim
  | sendOk _ op request => exact pushed [.invoke op (.sent comm), .release request] rfl
  | sendFailed _ request => exact pushed [.release request] rfl
  | recvDirect _ _ _ _ _ _ single =>
    rw [safe] at single
    cases single
  | recvFailed _ _ request _ _ failed worker =>
    rw [failed, failsRecv_failed worker] at accepted
    cases accepted
  | pop _ asked op => exact pushed [.invoke op (.queue asked.user)] rfl

/-- The queue of a `progress` under way has still to be drained, or the receive has left it. -/
def State.Drains (s : State) (thread comm : Nat) (stage : Drain) (op : Nat) : Prop :=
  s.Draining thread comm stage ∨ op ∉ s.reqQueue stage

theorem State.Drains.effect {active : Nat} (drains : s.Drains thread comm stage op) (plain : s.Plain)
    (safe : config.threadSafe = true) (accepted : s.failsRecv ⟨active, act⟩ = false)
    (target : stage = .recvs comm ∨ stage = .shared) (done : op ∈ s.completed)
    (effect : Effect config s active act t) : t.Drains thread comm stage op := by
  have leaves : op ∉ s.reqQueue stage → t.Drains thread comm stage op := fun outside =>
    .inr (plain.delivered.not_mem_reqQueue plain.toAccounted effect done outside)
  rcases drains with ⟨above, code, found, upTo⟩ | outside
  · rcases (effect_moves effect).under (fun _ _ => Restack.tops) found with
      ⟨kept, still⟩ | ⟨rfl, rfl, moved, now, restack⟩
    · exact .inl ⟨kept, code, still, upTo⟩
    · rcases restack_draining safe accepted target upTo restack with ⟨above, code, rfl, upTo⟩ | empty
      · exact .inl ⟨above, code, now, upTo⟩
      · exact leaves (by simp [empty])
  · exact leaves outside

structure State.Progressing (s : State) : Prop where
  guarded : s.Guarded
  ordered : s.Ordered

theorem progressing_of_reaches {threads : Nat} (safe : config.threadSafe = true)
    (reached : Reaches (step config) ErrorFree (State.initial threads) s) :
    s.Plain ∧ s.Progressing :=
  plain_invariant State.Progressing (fun _ _ permitted => permitted.1)
    (fun _ _ _ _ _ progressing permitted effect =>
      ⟨progressing.guarded.effect safe permitted.2 effect, progressing.ordered.effect safe effect⟩)
    (.initial threads) ⟨.initial threads, .initial threads⟩ reached

theorem step_progress {begun : State} (idle : s.threads[thread]? = some [])
    (called : step config s ⟨thread, .progress comm⟩ = some begun) :
    s.usable thread comm = true ∧
      begun = s.setStack thread [.call (some comm) .sendLoop] := by
  unfold step at called
  split at called
  · cases called
  · simp only [idle, inUserCode, State.userCall, if_true, Option.ite_none_right_eq_some,
      Option.some.injEq] at called
    exact ⟨called.1, called.2.symm⟩

/-- A completed receive has left the queues when a top-level `progress` has returned. -/
theorem drained_of_progress {begun after : State} (safe : config.threadSafe = true)
    (plain : s.Plain) (idle : s.threads[thread]? = some [])
    (called : step config s ⟨thread, .progress comm⟩ = some begun)
    (ran : Reaches (step config) ErrorFree begun after) (returned : after.threads[thread]? = some [])
    (target : stage = .recvs comm ∨ stage = .shared) (done : op ∈ s.completed) :
    op ∉ after.reqQueue stage := by
  obtain ⟨_, rfl⟩ := step_progress idle called
  have started : (s.setStack thread [.call (some comm) .sendLoop]).Draining thread comm stage :=
    ⟨[], .sendLoop, List.getElem?_set_self (List.getElem?_eq_some_iff.mp idle).1, trivial⟩
  have before := plain.effect (step_effect plain.uncanceled rfl called)
  have both := plain_invariant
    (fun t => op ∈ t.completed ∧ t.Drains thread comm stage op) (fun _ _ permitted => permitted.1)
    (fun _ _ _ _ plain holds permitted effect =>
      ⟨completed_of_effect effect holds.1, holds.2.effect plain safe permitted.2 target holds.1 effect⟩)
    before ⟨done, .inl started⟩ ran
  rcases both.2.2 with ⟨above, code, found, _⟩ | outside
  · rw [returned] at found
    simp at found
  · exact outside

theorem posts_of_reaches {allowed : State → Action → Prop} {post : Post} (plain : s.Plain)
    (noCancel : ∀ s action, allowed s action → NoCancel s action)
    (ran : Reaches (step config) allowed s t) (posted : s.posts[op]? = some post) :
    t.posts[op]? = some post := by
  refine (plain_invariant (fun t => t.posts[op]? = some post) noCancel ?_ plain posted ran).2
  intro before active act after _ posted _ effect
  obtain ⟨more, grown⟩ := (effect_records effect).grown
  rw [← grown, List.getElem?_append_left (List.getElem?_eq_some_iff.mp posted).1, posted]

theorem ownerOf_of_reaches {allowed : State → Action → Prop} {owner : Nat} (plain : s.Plain)
    (noCancel : ∀ s action, allowed s action → NoCancel s action)
    (ran : Reaches (step config) allowed s t) (owned : s.ownerOf comm = some owner) :
    t.ownerOf comm = some owner :=
  (plain_invariant (fun t => t.ownerOf comm = some owner) noCancel
    (fun _ _ _ _ _ owned _ effect => effect_owner effect owned) plain owned ran).2

theorem completed_of_reaches {allowed : State → Action → Prop} (plain : s.Plain)
    (noCancel : ∀ s action, allowed s action → NoCancel s action)
    (ran : Reaches (step config) allowed s t) (done : op ∈ s.completed) : op ∈ t.completed :=
  (plain_invariant (fun t => op ∈ t.completed) noCancel
    (fun _ _ _ _ _ done _ effect => completed_of_effect effect done) plain done ran).2

theorem owner_of_inHand (plain : s.Plain) (ordered : s.Ordered) {post : Post}
    (posted : s.posts[op]? = some post) (own : post.kind ≠ .sharedRecv) (inHand : s.InHand op) :
    ∃ thread, s.ownerOf post.comm = some thread ∧ s.threads[thread]? ≠ some [] := by
  obtain ⟨stack, member, via, inside⟩ := inHand
  obtain ⟨thread, found⟩ := List.getElem?_of_mem member
  refine ⟨thread, ordered.owned thread stack post.comm found ?_, ?_⟩
  · have fits := (plain.settled.frames _ member _ inside).1.of_found posted
    obtain ⟨above, below, rfl⟩ := List.append_of_mem inside
    have indirect : (Frame.callback op via).isDirect = false := by
      have plain := ordered.indirect _ member _ inside
      cases via <;> exact plain
    have needs : (Frame.invoke op via).needs = some post.comm := by
      rw [Frame.needs, Via.caller_eq_user indirect, ← fits.2, userOf_of_ne own]
    obtain ⟨caller, within, serves⟩ := (ordered.inside _ member).sheltered.served needs
    exact ⟨caller, List.mem_append_right _ (List.mem_cons_of_mem _ within), serves⟩
  · rw [found]
    rintro ⟨⟩
    cases inside

/-- In a thread safe context, in every run in which UCX reports no error for a receive, callbacks run at
most once, inside a call on their own communicator and outside the lock; and a top-level
`progress` leaves none of the receives that were completed before in a queue. -/
theorem receives_delivered (config : Config) (safe : config.threadSafe = true) (threads : Nat)
    {s : State} (reached : Reaches (step config) ErrorFree (State.initial threads) s) :
    (Event.calledOps s.history).Nodup ∧
    (∀ above op via below post, above ++ Frame.callback op via :: below ∈ s.threads →
      s.posts[op]? = some post → post.kind ≠ .sharedRecv →
      ∃ code, Frame.call (some post.comm) code ∈ below) ∧
    (∀ (thread op : Nat) (via : Via) (rest : List Frame),
      s.threads[thread]? = some (.callback op via :: rest) → s.mutex ≠ some thread) ∧
    ∀ thread begun after op post, s.threads[thread]? = some [] →
      s.posts[op]? = some post → op ∈ s.completed →
      step config s ⟨thread, .progress post.comm⟩ = some begun →
      Reaches (step config) ErrorFree begun after → after.threads[thread]? = some [] →
      op ∉ after.reqQueue (.recvs post.comm) ∧ op ∉ after.reqQueue .shared ∧
        (post.kind ≠ .sharedRecv → op ∈ Event.calledOps after.history) := by
  obtain ⟨plain, progressing⟩ := progressing_of_reaches safe reached
  refine ⟨plain.consistent.called_nodup, ?_, ?_, ?_⟩
  · intro above op via below post member posted own
    exact callback_inside plain progressing.ordered member posted own
  · intro thread op via rest found held
    obtain ⟨frame, others, here, locked⟩ := progressing.guarded thread held
    rw [found] at here
    cases here
    cases locked
  · intro thread begun after op post idle posted done called ran returned
    have leaves : ∀ {stage}, stage = .recvs post.comm ∨ stage = .shared → op ∉ after.reqQueue stage :=
      fun target => drained_of_progress safe plain idle called ran returned target done
    refine ⟨leaves (.inl rfl), leaves (.inr rfl), fun own => ?_⟩
    have whole : Reaches (step config) ErrorFree s after := .head ⟨_, ⟨rfl, rfl⟩, called⟩ ran
    have noCancel : ∀ s action, ErrorFree s action → NoCancel s action := fun _ _ => And.left
    obtain ⟨plainAfter, progressingAfter⟩ := progressing_of_reaches safe (reached.trans whole)
    have kept := posts_of_reaches plain noCancel whole posted
    rcases plainAfter.delivered.placed op (completed_of_reaches plain noCancel whole done) with
      (calledBack | inHand) | ⟨user, waits⟩
    · exact calledBack
    · obtain ⟨owner, owns, busy⟩ := owner_of_inHand plainAfter progressingAfter.ordered kept own inHand
      have mine := ownerOf_of_reaches plain noCancel whole
        (ownerOf_of_usable (step_progress idle called).1)
      rw [mine] at owns
      cases owns
      exact absurd returned busy
    · -- the queue in which it waits is the one that was drained
      have belongs := (plainAfter.settled.queues user op (queued_of_received waits)).of_found kept
      rw [userOf_of_ne own] at belongs
      rw [← belongs.2] at waits
      exact absurd waits (leaves (.inl rfl))

/-- The receive of one communicator is completed while another thread progresses the
receive worker, and called by the next `progress` of its own communicator. -/
theorem receive_delivered_to_owner :
    ∃ s begun after, Reaches (step ⟨20, true⟩) ErrorFree (State.initial 2) s ∧
      s.reqQueue (.recvs 1) = [0] ∧ step ⟨20, true⟩ s ⟨1, .progress 1⟩ = some begun ∧
      Reaches (step ⟨20, true⟩) ErrorFree begun after ∧ after.threads[1]? = some [] ∧
      0 ∈ Event.calledOps after.history := by
  obtain ⟨s, begun, after, reached, called, rest, queued, idle, done, posted, returned⟩ :=
    exists_call_of_run (step ⟨20, true⟩) ErrorFree (State.initial 2)
      [⟨0, .getCommunicator⟩, ⟨1, .getCommunicator⟩, ⟨1, .recv 1 0 7⟩, ⟨1, .advance⟩,
        ⟨1, .ucx (.inProgress 3)⟩, ⟨0, .progress 0⟩, ⟨0, .ucx (.progressed false)⟩, ⟨0, .advance⟩,
        ⟨0, .ucx (.callback ⟨3, 0, none⟩ .ok)⟩, ⟨0, .ucx (.progressed false)⟩]
      ⟨1, .progress 1⟩ (fun _ => ErrorFree)
      [⟨1, .ucx (.progressed false)⟩, ⟨1, .advance⟩, ⟨1, .ucx (.progressed false)⟩, ⟨1, .advance⟩,
        ⟨1, .advance⟩, ⟨1, .advance⟩, ⟨1, .callbackReturns⟩, ⟨1, .advance⟩, ⟨1, .advance⟩]
      (fun s after => s.reqQueue (.recvs 1) = [0] ∧ s.threads[1]? = some [] ∧
        s.completed = [0] ∧ s.posts[0]? = some ⟨1, .recv, 0, 7, false⟩ ∧
        after.threads[1]? = some []) (by decide +kernel)
  obtain ⟨_, _, _, delivered⟩ := receives_delivered ⟨20, true⟩ rfl 2 reached
  have result := delivered 1 begun after 0 _ idle posted (by simp [done]) called rest returned
  exact ⟨s, begun, after, reached, queued, called, rest, returned, result.2.2 nofun⟩

/-- UCX refuses a receive, and `recv` throws without giving the lock back.  A send of the
same thread that is completed immediately then runs its callback under the lock. -/
theorem callback_under_lock :
    ∃ s, Reaches (step ⟨20, true⟩) NoCancel (State.initial 1) s ∧
      s.threads[0]? = some [.callback 0 (.immediate 0), .call (some 0) .leave] ∧
      s.mutex = some 0 := by
  obtain ⟨s, reached, stack, held⟩ := exists_of_run (step ⟨20, true⟩) NoCancel (State.initial 1)
    [⟨0, .getCommunicator⟩, ⟨0, .recv 0 1 7⟩, ⟨0, .advance⟩, ⟨0, .ucx .errorPtr⟩, ⟨0, .send 0 1 7⟩,
      ⟨0, .ucx .immediate⟩]
    (fun s => s.threads[0]? = some [.callback 0 (.immediate 0), .call (some 0) .leave] ∧
      s.mutex = some 0) (by decide +kernel)
  exact ⟨s, reached, stack, held⟩

end Oomph.Ucx
