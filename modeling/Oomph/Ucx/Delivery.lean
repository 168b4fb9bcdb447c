import Oomph.Ucx.Accounting

namespace Oomph.Ucx

open Machine State

def Drain.received : Option Nat → Drain
  | some comm => .recvs comm
  | none => .shared

variable {config : Config} {s t : State} {thread : Nat} {stack moved rest : List Frame}
  {act : Act} {frame : Frame} {op other comm ptr : Nat} {user : Option Nat} {request : UcxRequest}
  {stage : Drain} {change : CommunicatorImpl → CommunicatorImpl}

namespace State

theorem reqQueue_modifyComm (sends : ∀ c, (change c).sendReqQueue = c.sendReqQueue)
    (recvs : ∀ c, (change c).recvReqQueue = c.recvReqQueue) :
    (s.modifyComm comm change).reqQueue stage = s.reqQueue stage := by
  cases stage with
  | shared => rfl
  | sends asked => simp only [reqQueue, modifyComm_comms, map_getElem?_modify sends]
  | recvs asked => simp only [reqQueue, modifyComm_comms, map_getElem?_modify recvs]

theorem reqQueue_incRecursion (via : Via) :
    (s.incRecursion via).reqQueue stage = s.reqQueue stage := by
  cases via with
  | immediate comm => exact reqQueue_modifyComm (s := s) (fun _ => by rfl) fun _ => by rfl
  | early user =>
    cases user with
    | some comm => exact reqQueue_modifyComm (s := s) (fun _ => by rfl) fun _ => by rfl
    | none => cases stage <;> rfl
  | _ => cases stage <;> rfl

theorem reqQueue_decRecursion (via : Via) :
    (s.decRecursion via).reqQueue stage = s.reqQueue stage := by
  cases via with
  | immediate comm => exact reqQueue_modifyComm (s := s) (fun _ => by rfl) fun _ => by rfl
  | early user =>
    cases user with
    | some comm => exact reqQueue_modifyComm (s := s) (fun _ => by rfl) fun _ => by rfl
    | none => cases stage <;> rfl
  | _ => cases stage <;> rfl

theorem reqQueue_addCommunicator :
    (s.addCommunicator thread).reqQueue stage = s.reqQueue stage := by
  cases stage with
  | shared => rfl
  | _ comm =>
    simp only [reqQueue, addCommunicator_comms, List.getElem?_append]
    split
    · rfl
    · rename_i beyond
      have none : s.comms[comm]? = none := List.getElem?_eq_none (Nat.le_of_not_lt beyond)
      cases index : comm - s.comms.length <;> simp [none]

theorem mem_reqQueue_enqueueSend (known : comm < s.comms.length) :
    other ∈ (s.modifyComm comm (.enqueueSend op)).reqQueue stage ↔
      other ∈ s.reqQueue stage ∨ other = op ∧ stage = .sends comm := by
  cases stage with
  | shared => simp [reqQueue]
  | sends asked =>
    by_cases here : comm = asked
    · subst here
      simp [reqQueue, CommunicatorImpl.enqueueSend, List.getElem?_eq_getElem known]
    · simp [reqQueue, here, Ne.symm here]
  | recvs asked =>
    have same : ∀ c : CommunicatorImpl, (c.enqueueSend op).recvReqQueue = c.recvReqQueue :=
      fun _ => rfl
    simp [reqQueue, map_getElem?_modify same]

theorem mem_reqQueue_enqueueRecv (known : ∀ comm, user = some comm → comm < s.comms.length) :
    other ∈ (s.enqueueRecv user op).reqQueue stage ↔
      other ∈ s.reqQueue stage ∨ other = op ∧ stage = .received user := by
  cases user with
  | none => cases stage <;> simp [reqQueue, enqueueRecv, onComm, Drain.received]
  | some comm =>
    cases stage with
    | shared => simp [reqQueue, Drain.received]
    | recvs asked =>
      by_cases here : comm = asked
      · subst here
        simp [reqQueue, CommunicatorImpl.enqueueRecv, onComm, Drain.received,
          List.getElem?_eq_getElem (known comm rfl)]
      · simp [reqQueue, onComm, here, Ne.symm here, Drain.received]
    | sends asked =>
      have same : ∀ c : CommunicatorImpl, (c.enqueueRecv op).sendReqQueue = c.sendReqQueue :=
        fun _ => rfl
      simp [reqQueue, onComm, map_getElem?_modify same, Drain.received]

theorem reqQueue_setReqQueue {stage asked : Drain} {queue : List Nat}
    (waits : s.reqQueue stage = op :: queue) :
    (s.setReqQueue stage queue).reqQueue asked = if asked = stage then queue else s.reqQueue asked := by
  cases stage with
  | shared =>
    cases asked <;> simp [reqQueue]
  | sends comm =>
    cases found : s.comms[comm]? with
    | none => simp [reqQueue, found] at waits
    | some c =>
      cases asked with
      | sends asked =>
        by_cases here : comm = asked
        · subst here
          simp [reqQueue, found]
        · simp [reqQueue, here, Ne.symm here]
      | recvs asked =>
        have same : ∀ c : CommunicatorImpl,
            { c with sendReqQueue := queue }.recvReqQueue = c.recvReqQueue := fun _ => rfl
        simp [reqQueue, map_getElem?_modify same]
      | shared => simp [reqQueue]
  | recvs comm =>
    cases found : s.comms[comm]? with
    | none => simp [reqQueue, found] at waits
    | some c =>
      cases asked with
      | recvs asked =>
        by_cases here : comm = asked
        · subst here
          simp [reqQueue, found]
        · simp [reqQueue, here, Ne.symm here]
      | sends asked =>
        have same : ∀ c : CommunicatorImpl,
            { c with recvReqQueue := queue }.sendReqQueue = c.sendReqQueue := fun _ => rfl
        simp [reqQueue, map_getElem?_modify same]
      | shared => simp [reqQueue]

theorem queued_of_received (member : op ∈ s.reqQueue (.received user)) : op ∈ s.queued user := by
  have inside := queued_of_reqQueue member
  cases user <;> exact inside

def InHand (s : State) (op : Nat) : Prop :=
  ∃ stack ∈ s.threads, ∃ via, Frame.invoke op via ∈ stack

def Taken (s : State) (op : Nat) : Prop :=
  op ∈ Event.calledOps s.history ∨ s.InHand op

theorem inHand_of_top {via : Via} (found : s.threads[thread]? = some stack)
    (threads : t.threads = s.threads.set thread (.invoke op via :: rest)) : t.InHand op := by
  refine ⟨.invoke op via :: rest, ?_, via, List.mem_cons_self⟩
  rw [threads]
  exact List.mem_set (List.getElem?_eq_some_iff.mp found).1 _

end State

theorem Restack.invoked {via : Via}
    (restack : Restack config s thread act (.invoke op via :: rest) moved) :
    moved = .callback op via :: rest := by
  cases restack with
  | control stack moved control =>
    cases control with
    | send _ _ _ _ user => cases user
    | recv _ _ _ _ _ _ user => cases user
    | progress _ _ user => cases user
    | contextProgress _ user => cases user
  | lock stack moved locks => cases locks
  | start => rfl

theorem State.Taken.effect (taken : s.Taken op) (accounted : s.Accounted)
    (effect : Effect config s thread act t) : t.Taken op := by
  rcases taken with called | ⟨stack, member, via, inside⟩
  · exact .inl (Books.called_of_entries (effect_entry accounted.settled accounted.attached effect) called)
  · obtain ⟨index, here⟩ := List.getElem?_of_mem member
    rcases (effect_moves effect).stays (fun _ _ => Restack.tops) here inside with
      ⟨later, still, kept⟩ | ⟨rfl, rest, moved, rfl, now, restack⟩
    · exact .inr ⟨later, List.mem_of_getElem? still, via, kept⟩
    · -- the callback runs in the next state, so the books there say that it was called
      have runs : op ∈ t.running :=
        mem_total.mpr ⟨moved, List.mem_of_getElem? now, by rw [restack.invoked]; simp⟩
      exact .inl ((accounted.effect effect).consistent.called_of_running runs)

theorem FlightStep.inFlight (step : FlightStep s t) (member : request ∈ t.inFlight) :
    request ∈ s.inFlight ∨ request.op = s.posts.length := by
  cases step with
  | same inFlight => exact .inl (inFlight ▸ member)
  | post new fresh _ inFlight =>
    rw [inFlight] at member
    rcases List.mem_append.mp member with old | last
    · exact .inl old
    · rw [List.mem_singleton.mp last]
      exact .inr fresh
  | take other _ inFlight =>
    rw [inFlight] at member
    exact .inl (List.mem_of_mem_erase member)

/-- What a step does to the queues.  Only a new operation or one that UCX had in progress
gets into a queue, and it leaves the queue when a drain takes it. -/
inductive QueueStep (s t : State) : Prop
  | same : (∀ stage, t.reqQueue stage = s.reqQueue stage) → QueueStep s t
  | push (op : Nat) (stage : Drain) :
      op = s.posts.length ∨ (∃ request ∈ s.inFlight, request.op = op) →
      (∀ other asked, other ∈ t.reqQueue asked ↔
        other ∈ s.reqQueue asked ∨ other = op ∧ asked = stage) → QueueStep s t
  | pop (op : Nat) (stage : Drain) (queue : List Nat) : s.reqQueue stage = op :: queue →
      (∀ asked, t.reqQueue asked = if asked = stage then queue else s.reqQueue asked) →
      t.InHand op → QueueStep s t

theorem State.Settled.known_of_call {code : Code} {kind : Kind} (settled : s.Settled)
    (found : s.threads[thread]? = some (.call (some comm) code :: rest)) (owner : Nat)
    (same : userOf comm kind = some owner) : owner < s.comms.length := by
  have called := (settled.head found).1 comm rfl
  cases kind with
  | sharedRecv => cases same
  | _ => cases same; exact called

theorem effect_queues (accounted : s.Accounted) (effect : Effect config s thread act t) :
    QueueStep s t := by
  have settled := accounted.settled
  cases effect with
  | getCommunicator => exact .same fun _ => reqQueue_addCommunicator
  | runSend comm => exact .same fun _ => reqQueue_incRecursion (s := s.addPost _) (.immediate comm)
  | queueSend comm dst tag c rest found owner =>
    exact .push s.posts.length (.sends comm) (.inl rfl) fun _ _ =>
      mem_reqQueue_enqueueSend (s := s.create comm .send dst tag none)
        (List.getElem?_eq_some_iff.mp owner).1
  | runEarly comm kind =>
    exact .same fun _ =>
      reqQueue_incRecursion (s := (s.addPost _).complete _) (.early (userOf comm kind))
  | deferEarly comm kind src tag ptr rest found =>
    exact .push s.posts.length (.received (userOf comm kind)) (.inl rfl) fun _ _ =>
      mem_reqQueue_enqueueRecv (s := ((s.create comm kind src tag (some ptr)).complete _).defer _)
        (settled.known_of_call found)
  | recvOwn user code request op shared rest found receives inFlight worker data =>
    obtain ⟨rfl, belongs⟩ := accounted.attached.own settled inFlight data
    exact .push request.op (.recvs (s.heap request.op).comm) (.inr ⟨request, inFlight, rfl⟩)
      fun _ _ => mem_reqQueue_enqueueRecv
        (s := ((s.takeRequest request).complete request.op).release request) (settled.known belongs)
  | recvShared user code request op rest found receives inFlight worker data =>
    obtain ⟨rfl, _⟩ := accounted.attached.shared inFlight data
    exact .push request.op .shared (.inr ⟨request, inFlight, rfl⟩) fun _ _ =>
      mem_reqQueue_enqueueRecv
        (s := ((s.takeRequest request).complete request.op).release request) nofun
  | returnCallback op via =>
    unfold State.returnCallback
    split
    · exact .same fun _ => reqQueue_decRecursion (s := s.log _) via
    · exact .same fun _ => rfl
  | pop user stage op queue rest found waits =>
    exact .pop op stage queue waits (fun _ => reqQueue_setReqQueue waits) (inHand_of_top found rfl)
  | _ => exact .same fun _ => rfl

namespace QueueStep

theorem kept (step : QueueStep s t) (member : op ∈ s.reqQueue stage) :
    op ∈ t.reqQueue stage ∨ t.InHand op := by
  cases step with
  | same queues => exact .inl (queues stage ▸ member)
  | push pushed target _ queues => exact .inl ((queues op stage).mpr (.inl member))
  | pop popped source queue waits queues inHand =>
    by_cases here : stage = source
    · subst here
      rw [waits] at member
      rcases List.mem_cons.mp member with rfl | later
      · exact .inr inHand
      · exact .inl (by rw [queues, if_pos rfl]; exact later)
    · exact .inl (by rw [queues, if_neg here]; exact member)

theorem entered (step : QueueStep s t) (member : op ∈ t.reqQueue stage) :
    op ∈ s.reqQueue stage ∨ op = s.posts.length ∨ ∃ request ∈ s.inFlight, request.op = op := by
  cases step with
  | same queues => exact .inl (queues stage ▸ member)
  | push pushed target origin queues =>
    rcases (queues op stage).mp member with old | ⟨rfl, _⟩
    · exact .inl old
    · exact .inr origin
  | pop popped source queue waits queues =>
    left
    rw [queues] at member
    split at member
    · rename_i here
      rw [here, waits]
      exact List.mem_cons_of_mem _ member
    · exact member

end QueueStep

/-- Every receive that UCX has completed is done with in UCX, and was taken or waits in the
queue of its owner. -/
structure State.Delivered (s : State) : Prop where
  known : ∀ op ∈ s.completed, op < s.posts.length
  apart : ∀ request ∈ s.inFlight, request.op ∉ s.completed
  placed : ∀ op ∈ s.completed, s.Taken op ∨ ∃ user, op ∈ s.reqQueue (.received user)

theorem completed_of_effect (effect : Effect config s thread act t) (done : op ∈ s.completed) :
    op ∈ t.completed := by
  cases effect with
  | runEarly => exact List.mem_cons_of_mem _ done
  | deferEarly => exact List.mem_cons_of_mem _ done
  | recvOwn => exact List.mem_cons_of_mem _ done
  | recvDirect => exact List.mem_cons_of_mem _ done
  | recvShared => exact List.mem_cons_of_mem _ done
  | returnCallback op via =>
    unfold State.returnCallback
    split <;> exact done
  | _ => exact done

private theorem effect_completed (accounted : s.Accounted) (effect : Effect config s thread act t)
    (member : op ∈ t.completed) : op ∈ s.completed ∨ op < t.posts.length ∧
      (∀ request ∈ t.inFlight, request.op ≠ op) ∧
      (t.Taken op ∨ ∃ user, op ∈ t.reqQueue (.received user)) := by
  have settled := accounted.settled
  have pinned := accounted.pinned
  have posted : ∀ request ∈ s.inFlight, request.op < s.posts.length := fun request inside =>
    pinned.known _ (Memory.mem_active_of_inFlight inside)
  cases effect with
  | runEarly comm kind src tag rest found =>
    rcases List.mem_cons.mp member with rfl | old
    · refine .inr ⟨by simp [State.runEarly], ?_, .inl (.inl (by simp [State.runEarly]))⟩
      exact fun request inside => (posted request inside).ne
    · exact .inl old
  | deferEarly comm kind src tag ptr rest found =>
    rcases List.mem_cons.mp member with rfl | old
    · refine .inr ⟨by simp [State.deferEarly], ?_, .inr ⟨userOf comm kind, ?_⟩⟩
      · exact fun request inside => (posted request inside).ne
      · exact (mem_reqQueue_enqueueRecv
          (s := ((s.create comm kind src tag (some ptr)).complete _).defer _)
          (settled.known_of_call found)).mpr (.inr ⟨rfl, rfl⟩)
    · exact .inl old
  | recvOwn user code request op shared rest found receives inFlight worker data =>
    obtain ⟨rfl, belongs⟩ := accounted.attached.own settled inFlight data
    rcases List.mem_cons.mp member with rfl | old
    · refine .inr ⟨posted request inFlight, fun other inside => pinned.op_ne_of_erase inFlight inside,
        .inr ⟨some (s.heap request.op).comm, ?_⟩⟩
      exact (mem_reqQueue_enqueueRecv
        (s := ((s.takeRequest request).complete request.op).release request)
        (settled.known belongs)).mpr (.inr ⟨rfl, rfl⟩)
    · exact .inl old
  | recvDirect user code request op shared rest found receives inFlight worker data =>
    obtain ⟨rfl, belongs⟩ := accounted.attached.own settled inFlight data
    rcases List.mem_cons.mp member with rfl | old
    · exact .inr ⟨posted request inFlight, fun other inside => pinned.op_ne_of_erase inFlight inside,
        .inl (.inr (inHand_of_top found rfl))⟩
    · exact .inl old
  | recvShared user code request op rest found receives inFlight worker data =>
    obtain ⟨rfl, _⟩ := accounted.attached.shared inFlight data
    rcases List.mem_cons.mp member with rfl | old
    · refine .inr ⟨posted request inFlight, fun other inside => pinned.op_ne_of_erase inFlight inside,
        .inr ⟨none, ?_⟩⟩
      exact (mem_reqQueue_enqueueRecv
        (s := ((s.takeRequest request).complete request.op).release request)
        (fun _ same => by cases same)).mpr (.inr ⟨rfl, rfl⟩)
    · exact .inl old
  | returnCallback op via =>
    unfold State.returnCallback at member
    split at member <;> exact .inl member
  | _ => exact .inl member

namespace State.Delivered

theorem initial (threads : Nat) : (State.initial threads).Delivered :=
  ⟨nofun, nofun, nofun⟩

theorem effect (delivered : s.Delivered) (accounted : s.Accounted)
    (effect : Effect config s thread act t) : t.Delivered where
  known op member := by
    rcases effect_completed accounted effect member with old | ⟨known, _⟩
    · exact (delivered.known op old).trans_le (effect_records effect).grown.length_le
    · exact known
  apart request inside member := by
    rcases effect_completed accounted effect member with old | ⟨_, apart, _⟩
    · rcases (effect_flight effect).inFlight inside with before | new
      · exact delivered.apart request before old
      · exact absurd (delivered.known _ old) (by omega)
    · exact apart request inside rfl
  placed op member := by
    rcases effect_completed accounted effect member with old | ⟨_, _, placed⟩
    · rcases delivered.placed op old with taken | ⟨user, waits⟩
      · exact .inl (taken.effect accounted effect)
      · rcases (effect_queues accounted effect).kept waits with stays | inHand
        · exact .inr ⟨user, stays⟩
        · exact .inl (.inr inHand)
    · exact placed

theorem not_mem_reqQueue (delivered : s.Delivered) (accounted : s.Accounted)
    (effect : Effect config s thread act t) (done : op ∈ s.completed)
    (outside : op ∉ s.reqQueue stage) : op ∉ t.reqQueue stage := by
  intro member
  rcases (effect_queues accounted effect).entered member with old | rfl | ⟨request, inside, rfl⟩
  · exact outside old
  · exact absurd (delivered.known _ done) (lt_irrefl _)
  · exact delivered.apart request inside done

end State.Delivered

structure State.Plain (s : State) : Prop extends s.Accounted where
  uncanceled : s.Uncanceled
  delivered : s.Delivered

namespace State.Plain

theorem initial (threads : Nat) : (State.initial threads).Plain where
  toAccounted := .initial threads
  uncanceled := .initial threads
  delivered := .initial threads

theorem effect (plain : s.Plain) (effect : Effect config s thread act t) : t.Plain where
  toAccounted := plain.toAccounted.effect effect
  uncanceled := plain.uncanceled.effect effect
  delivered := plain.delivered.effect plain.toAccounted effect

end State.Plain

theorem plain_invariant {allowed : State → Action → Prop} {start : State} (Holds : State → Prop)
    (noCancel : ∀ s action, allowed s action → NoCancel s action)
    (keeps : ∀ s thread act t, s.Plain → Holds s → allowed s ⟨thread, act⟩ →
      Effect config s thread act t → Holds t)
    (plain : start.Plain) (holds : Holds start) (reached : Reaches (step config) allowed start s) :
    s.Plain ∧ Holds s := by
  refine reached.invariant (fun s => s.Plain ∧ Holds s) ⟨plain, holds⟩ ?_
  intro before action after holds permitted taken
  have effect := step_effect holds.1.uncanceled (noCancel _ _ permitted) taken
  exact ⟨holds.1.effect effect, keeps _ _ _ _ holds.1 holds.2 permitted effect⟩

end Oomph.Ucx
