import Oomph.Ucx.Progress

namespace Oomph.Ucx

open Machine State

/-! At the recursion limit a receive that completes inside `recv` is put into the queue of its
communicator.  `progress` drains that queue in a thread safe context only, so in any other
the receive stays there.  All other completed receives are called back.
-/

variable {config : Config} {s t : State} {thread : Nat} {stack moved rest : List Frame}
  {act : Act} {frame : Frame} {op other comm ptr : Nat} {user : Option Nat}

def Frame.drainsRecvs : Frame → Bool
  | .call _ (.clear (.recvs _)) => true
  | _ => false

theorem Restack.drainsRecvs (restack : Restack config s thread act stack moved)
    (single : config.threadSafe = false) (plain : ∀ frame ∈ stack, frame.drainsRecvs = false) :
    ∀ frame ∈ moved, frame.drainsRecvs = false := by
  have first : ∀ user, (Frame.call user (.clear (.first user))).drainsRecvs = false := by
    intro user
    cases user <;> rfl
  cases restack with
  | control stack moved control =>
    cases control with
    | sendProgressed comm more rest =>
      refine List.forall_mem_cons.mpr ⟨?_, (List.forall_mem_cons.mp plain).2⟩
      cases more with
      | true => rfl
      | false => simp [State.afterSendLoop, single, Frame.drainsRecvs]
    | recvProgressed comm tries more rest =>
      refine List.forall_mem_cons.mpr ⟨?_, (List.forall_mem_cons.mp plain).2⟩
      cases more with
      | true => rfl
      | false => exact first (some comm)
    | noMoreTries user rest =>
      exact List.forall_mem_cons.mpr ⟨first user, (List.forall_mem_cons.mp plain).2⟩
    | nextQueue user stage next rest empty follows =>
      refine List.forall_mem_cons.mpr ⟨?_, (List.forall_mem_cons.mp plain).2⟩
      cases stage <;> simp_all [Drain.next, Frame.drainsRecvs]
      subst follows
      rfl
    | _ => simp_all [Frame.drainsRecvs]
  | lock stack moved locks => cases locks <;> simp_all [Frame.drainsRecvs]
  | unlock user tries more rest =>
    refine List.forall_mem_cons.mpr ⟨?_, (List.forall_mem_cons.mp plain).2⟩
    cases more with
    | true => rfl
    | false => exact first user
  | early comm code next rest posting follows =>
    refine List.forall_mem_cons.mpr ⟨?_, (List.forall_mem_cons.mp plain).2⟩
    cases next <;> first | rfl | cases follows
  | _ => simp_all [Frame.drainsRecvs]

/-- The receives of a communicator that were put off stay in its queue, and it has no others. -/
structure State.Parked (s : State) : Prop where
  undrained : ∀ stack ∈ s.threads, ∀ frame ∈ stack, frame.drainsRecvs = false
  deferred : ∀ comm, ∀ op ∈ s.reqQueue (.recvs comm), op ∈ s.deferred
  waits : ∀ op ∈ s.deferred, PostedAs s.posts op fun post =>
    post.kind ≠ .sharedRecv → op ∈ s.reqQueue (.recvs post.comm)

inductive RecvsStep (s t : State) : Prop
  | same : t.deferred = s.deferred →
      (∀ comm, t.reqQueue (.recvs comm) = s.reqQueue (.recvs comm)) → RecvsStep s t
  | defer (comm : Nat) (kind : Kind) : t.deferred = s.posts.length :: s.deferred →
      PostedAs t.posts s.posts.length (fun post => post.comm = comm ∧ post.kind = kind) →
      (∀ other asked, other ∈ t.reqQueue (.recvs asked) ↔ other ∈ s.reqQueue (.recvs asked) ∨
        other = s.posts.length ∧ Drain.recvs asked = .received (userOf comm kind)) → RecvsStep s t

private theorem effect_recvs (single : config.threadSafe = false) (plain : s.Plain)
    (parked : s.Parked) (effect : Effect config s thread act t) : RecvsStep s t := by
  have kept : t.deferred = s.deferred → (∀ stage, t.reqQueue stage = s.reqQueue stage) →
      RecvsStep s t := fun deferred queues => .same deferred fun comm => queues (.recvs comm)
  cases effect with
  | getCommunicator => exact kept rfl fun _ => reqQueue_addCommunicator
  | runSend comm =>
    exact kept rfl fun _ => reqQueue_incRecursion (s := s.addPost _) (.immediate comm)
  | queueSend comm dst tag c rest found owner =>
    refine .same rfl fun asked => ?_
    have same : ∀ c : CommunicatorImpl, (c.enqueueSend s.posts.length).recvReqQueue =
      c.recvReqQueue := fun _ => rfl
    simp [reqQueue, State.queueSend, map_getElem?_modify same]
  | runEarly comm kind =>
    exact kept rfl fun _ =>
      reqQueue_incRecursion (s := (s.addPost _).complete _) (.early (userOf comm kind))
  | deferEarly comm kind src tag ptr rest found =>
    have queues : ∀ other stage,
        other ∈ (s.deferEarly thread comm kind src tag ptr rest).reqQueue stage ↔
          other ∈ s.reqQueue stage ∨
            other = s.posts.length ∧ stage = .received (userOf comm kind) := fun _ _ =>
      mem_reqQueue_enqueueRecv (s := ((s.create comm kind src tag (some ptr)).complete _).defer _)
        (plain.settled.known_of_call found)
    exact .defer comm kind rfl (PostedAs.last ⟨rfl, rfl⟩) fun other asked => queues other _
  | recvOwn _ _ _ _ _ _ _ _ _ _ _ safe =>
    rw [single] at safe
    cases safe
  | returnCallback op via =>
    unfold State.returnCallback at kept ⊢
    split at kept
    · rename_i inplace
      rw [if_pos inplace]
      exact kept rfl fun _ => reqQueue_decRecursion (s := s.log _) via
    · rename_i request
      rw [if_neg request]
      exact kept rfl fun _ => rfl
  | pop user stage op queue rest found waits =>
    refine .same rfl fun asked => ?_
    have undrained := parked.undrained _ (List.mem_of_getElem? found) _ List.mem_cons_self
    have other : Drain.recvs asked ≠ stage := by
      rintro rfl
      cases undrained
    have queues : ∀ asked, (s.setReqQueue stage queue).reqQueue asked =
        if asked = stage then queue else s.reqQueue asked := fun _ => reqQueue_setReqQueue waits
    exact (queues (.recvs asked)).trans (if_neg other)
  | _ => exact .same rfl fun _ => rfl

namespace State.Parked

theorem initial (threads : Nat) : (State.initial threads).Parked where
  undrained stack member frame inside := by
    rw [List.eq_of_mem_replicate member] at inside
    cases inside
  deferred comm op member := by simp [State.initial, reqQueue] at member
  waits := nofun

theorem effect (parked : s.Parked) (single : config.threadSafe = false) (plain : s.Plain)
    (effect : Effect config s thread act t) : t.Parked := by
  obtain ⟨more, grown⟩ := (effect_records effect).grown
  refine ⟨(effect_moves effect).forall_mem (fun _ _ restack => restack.drainsRecvs single)
    parked.undrained, ?_, ?_⟩
  · intro asked op member
    cases effect_recvs single plain parked effect with
    | same deferred queues =>
      rw [deferred]
      exact parked.deferred asked op (queues asked ▸ member)
    | defer comm kind deferred posted queues =>
      rw [deferred]
      rcases (queues op asked).mp member with old | ⟨rfl, _⟩
      · exact List.mem_cons_of_mem _ (parked.deferred asked op old)
      · exact List.mem_cons_self
  · intro op member
    cases effect_recvs single plain parked effect with
    | same deferred queues =>
      rw [← grown]
      refine ((parked.waits op (deferred ▸ member)).append more).imp fun post waits own => ?_
      rw [queues]
      exact waits own
    | defer comm kind deferred posted queues =>
      rw [deferred] at member
      rcases List.mem_cons.mp member with rfl | old
      · refine posted.imp ?_
        rintro post ⟨rfl, rfl⟩ own
        exact (queues _ _).mpr (.inr ⟨rfl, by rw [userOf_of_ne own]; rfl⟩)
      · rw [← grown]
        refine ((parked.waits op old).append more).imp fun post waits own => ?_
        exact (queues _ _).mpr (.inl (waits own))

end State.Parked

theorem parked_of_reaches {threads : Nat} (single : config.threadSafe = false)
    (reached : Reaches (step config) NoCancel (State.initial threads) s) : s.Plain ∧ s.Parked :=
  plain_invariant State.Parked (fun _ _ => id)
    (fun _ _ _ _ plain parked _ effect => parked.effect single plain effect)
    (.initial threads) (.initial threads) reached

theorem mem_waiting_of_reqQueue (member : op ∈ s.reqQueue (.recvs comm)) : op ∈ s.waiting := by
  cases found : s.comms[comm]? with
  | none => simp [reqQueue, found] at member
  | some c =>
    have inside : op ∈ c.recvReqQueue := by simpa [reqQueue, found] using member
    have waits : op ∈ total CommunicatorImpl.waiting s.comms :=
      mem_total.mpr ⟨c, List.mem_of_getElem? found, by simp [CommunicatorImpl.waiting, inside]⟩
    simp only [State.waiting, stored, Multiset.mem_add]
    exact .inl (.inl (.inl (.inr waits)))

/-- When no call is in progress, a completed receive was called once or was put off. -/
theorem called_once_iff {post : Post} (plain : s.Plain) (parked : s.Parked)
    (idle : ∀ stack ∈ s.threads, stack = []) (done : op ∈ s.completed)
    (posted : s.posts[op]? = some post) (own : post.kind ≠ .sharedRecv) :
    (Event.calledOps s.history).count op = 1 ↔ op ∉ s.deferred := by
  constructor
  · intro once deferred
    have waits := (parked.waits op deferred).of_found posted own
    have uncalled : op ∉ Event.calledOps s.history :=
      plain.consistent.not_called_of_waiting (mem_waiting_of_reqQueue waits)
    rw [Multiset.count_eq_zero_of_notMem uncalled] at once
    cases once
  · intro direct
    refine Multiset.count_eq_one_of_mem plain.consistent.called_nodup ?_
    rcases plain.delivered.placed op done with (called | ⟨stack, member, via, inside⟩) | ⟨user, waits⟩
    · exact called
    · rw [idle stack member] at inside
      cases inside
    · have belongs := (plain.settled.queues user op (queued_of_received waits)).of_found posted
      rw [userOf_of_ne own] at belongs
      rw [← belongs.2] at waits
      exact absurd (parked.deferred _ op waits) direct

theorem threads_length_of_reaches {allowed : State → Action → Prop} {start : State}
    (plain : start.Plain) (noCancel : ∀ s action, allowed s action → NoCancel s action)
    (ran : Reaches (step config) allowed start s) : s.threads.length = start.threads.length := by
  refine (plain_invariant (fun s => s.threads.length = start.threads.length) noCancel ?_ plain rfl
    ran).2
  intro before active act after _ same _ effect
  have moves := effect_moves effect
  generalize after.threads = threads at moves ⊢
  cases moves with
  | same => exact same
  | move stack moved => rw [List.length_set, same]

/-- In a context that is not thread safe, when a top-level `progress` returns, a completed
receive has been called exactly once if and only if it was not completed inside `recv` at
the recursion limit. -/
theorem completed_receive_called_iff (config : Config) (single : config.threadSafe = false)
    {s begun after : State} {comm op : Nat} {post : Post}
    (reached : Reaches (step config) NoCancel (State.initial 1) s)
    (_ : s.threads[0]? = some [])
    (called : step config s ⟨0, .progress comm⟩ = some begun)
    (ran : Reaches (step config) NoCancel begun after) (returned : after.threads[0]? = some [])
    (done : op ∈ after.completed) (posted : after.posts[op]? = some post)
    (own : post.kind ≠ .sharedRecv) :
    (Event.calledOps after.history).count op = 1 ↔ op ∉ after.deferred := by
  have whole : Reaches (step config) NoCancel (State.initial 1) after :=
    (reached.extend (by rfl) called).trans ran
  obtain ⟨plain, parked⟩ := parked_of_reaches single whole
  refine called_once_iff plain parked ?_ done posted own
  have one : after.threads.length = 1 := by
    rw [threads_length_of_reaches (.initial 1) (fun _ _ => id) whole]
    rfl
  intro stack member
  obtain ⟨index, found⟩ := List.getElem?_of_mem member
  have inside := (List.getElem?_eq_some_iff.mp found).1
  obtain rfl : index = 0 := by omega
  exact Option.some.inj (found.symm.trans returned)

/-- An ordinary receive is called by `recv_callback` while `progress` works on the worker. -/
theorem completed_receive_called :
    ∃ s begun after, Reaches (step ⟨20, false⟩) NoCancel (State.initial 1) s ∧
      step ⟨20, false⟩ s ⟨0, .progress 0⟩ = some begun ∧
      Reaches (step ⟨20, false⟩) NoCancel begun after ∧ after.threads[0]? = some [] ∧
      (Event.calledOps after.history).count 0 = 1 := by
  obtain ⟨s, begun, after, reached, called, rest, idle, returned, done, posted, direct⟩ :=
    exists_call_of_run (step ⟨20, false⟩) NoCancel (State.initial 1)
      [⟨0, .getCommunicator⟩, ⟨0, .recv 0 1 7⟩, ⟨0, .advance⟩, ⟨0, .ucx (.inProgress 3)⟩]
      ⟨0, .progress 0⟩ (fun _ => NoCancel)
      [⟨0, .ucx (.progressed false)⟩, ⟨0, .ucx (.callback ⟨3, 0, none⟩ .ok)⟩, ⟨0, .advance⟩,
        ⟨0, .callbackReturns⟩, ⟨0, .ucx (.progressed false)⟩, ⟨0, .advance⟩, ⟨0, .advance⟩]
      (fun s after => s.threads[0]? = some [] ∧ after.threads[0]? = some [] ∧
        after.completed = [0] ∧ after.posts[0]? = some ⟨0, .recv, 1, 7, false⟩ ∧
        after.deferred = []) (by decide +kernel)
  have once := (completed_receive_called_iff ⟨20, false⟩ rfl reached idle called rest returned
    (by simp [done]) posted nofun).mpr (by simp [direct])
  exact ⟨s, begun, after, reached, called, rest, returned, once⟩

def nestedReceive : List Action :=
  [⟨0, .recv 0 1 7⟩, ⟨0, .advance⟩, ⟨0, .ucx (.early 5)⟩, ⟨0, .advance⟩, ⟨0, .advance⟩]

/-- The receive of the innermost of 22 nested calls completes at the recursion limit.  It is
still in the queue when all callbacks and a `progress` have returned. -/
theorem nested_receive_never_called :
    ∃ s begun after, Reaches (step ⟨20, false⟩) NoCancel (State.initial 1) s ∧
      s.threads[0]? = some [] ∧ 21 ∈ s.completed ∧
      s.posts[21]? = some ⟨0, .recv, 1, 7, false⟩ ∧
      step ⟨20, false⟩ s ⟨0, .progress 0⟩ = some begun ∧
      Reaches (step ⟨20, false⟩) NoCancel begun after ∧ after.threads[0]? = some [] ∧
      (Event.calledOps after.history).count 21 = 0 ∧ after.reqQueue (.recvs 0) = [21] := by
  obtain ⟨s, begun, after, reached, called, rest, idle, done, posted, returned, never, waits⟩ :=
    exists_call_of_run (step ⟨20, false⟩) NoCancel (State.initial 1)
      ([⟨0, .getCommunicator⟩] ++ (List.replicate 22 nestedReceive).flatten ++
        (List.replicate 21 [⟨0, .callbackReturns⟩, ⟨0, .advance⟩]).flatten)
      ⟨0, .progress 0⟩ (fun _ => NoCancel)
      [⟨0, .ucx (.progressed false)⟩, ⟨0, .ucx (.progressed false)⟩, ⟨0, .advance⟩, ⟨0, .advance⟩]
      (fun s after => s.threads[0]? = some [] ∧ 21 ∈ s.completed ∧
        s.posts[21]? = some ⟨0, .recv, 1, 7, false⟩ ∧ after.threads[0]? = some [] ∧
        (Event.calledOps after.history).count 21 = 0 ∧ after.reqQueue (.recvs 0) = [21])
      (by decide +kernel)
  exact ⟨s, begun, after, reached, idle, done, posted, called, rest, returned, never, waits⟩

end Oomph.Ucx
