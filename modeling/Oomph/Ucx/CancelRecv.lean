import Oomph.Ucx.Accounting

namespace Oomph.Ucx

open Machine State

variable {config : Config} {s t : State} {thread : Nat} {stack moved rest : List Frame}
  {act : Act} {frame : Frame} {op other comm ptr : Nat} {user : Option Nat} {request : UcxRequest}

namespace Memory

variable {posts more : List Post} {ptrOf : Nat → Option Nat} {m after : Memory}

def Unleaked (ptrOf : Nat → Option Nat) (m : Memory) : Prop :=
  ∀ ptr owner, Lease.holder m.ptrEvents ptr = some owner →
    ∃ op ∈ m.active, owner = some op ∧ ptrOf op = some ptr

namespace Unleaked

theorem grow {learned : Nat → Option Nat} (unleaked : m.Unleaked ptrOf)
    (pinned : m.Pinned posts ptrOf) (same : ∀ op < posts.length, learned op = ptrOf op) :
    m.Unleaked learned := by
  intro ptr owner held
  obtain ⟨op, member, mine, known⟩ := unleaked ptr owner held
  exact ⟨op, member, mine, (same op (pinned.known op member)).trans known⟩

private theorem give (unleaked : m.Unleaked ptrOf) (known : ptrOf op = some ptr)
    (fewer : m.active = op ::ₘ after.active)
    (events : after.ptrEvents = .freed ptr (some op) :: m.ptrEvents) : after.Unleaked ptrOf := by
  intro piece owner held
  rw [events] at held
  by_cases here : ptr = piece
  · subst here
    rw [Lease.holder_freed] at held
    cases held
  · rw [Lease.holder_freed_of_ne here] at held
    obtain ⟨other, member, mine, learned⟩ := unleaked piece owner held
    rw [fewer] at member
    rcases Multiset.mem_cons.mp member with rfl | old
    · rw [known] at learned
      exact absurd (Option.some.inj learned) here
    · exact ⟨other, old, mine, learned⟩

private theorem use (unleaked : m.Unleaked ptrOf) (owner : Option Nat)
    (active : ∀ op ∈ m.active, op ∈ after.active)
    (events : after.ptrEvents = .used ptr owner :: m.ptrEvents) : after.Unleaked ptrOf := by
  intro piece owner held
  rw [events] at held
  obtain ⟨op, member, mine⟩ := unleaked piece owner held
  exact ⟨op, active op member, mine⟩

theorem step {error : Prop} (unleaked : m.Unleaked ptrOf) (pinned : m.Pinned posts ptrOf)
    (correct : ¬ error) (step : MemoryStep error posts ptrOf m after) : after.Unleaked ptrOf := by
  cases step with
  | keep => exact unleaked
  | early ptr free =>
    intro piece owner held
    by_cases here : ptr = piece
    · subst here
      rw [Lease.holder_freed] at held
      cases held
    · rw [Lease.holder_freed_of_ne here, Lease.holder_used, Lease.holder_lent_of_ne here] at held
      exact unleaked piece owner held
  | leak ptr failed => exact absurd failed correct
  | abandon request failed => exact absurd failed correct
  | attach request post free posted fresh made worker learned =>
    intro piece owner held
    have more := active_attach (m := m) request
    by_cases here : request.ptr = piece
    · subst here
      rw [Lease.holder_lent] at held
      cases held
      exact ⟨request.op, more ▸ Multiset.mem_cons_self _ _, rfl, learned⟩
    · rw [Lease.holder_lent_of_ne here] at held
      obtain ⟨op, member, mine⟩ := unleaked piece owner held
      exact ⟨op, more ▸ Multiset.mem_cons_of_mem member, mine⟩
  | sent request member =>
    exact unleaked.use (some request.op) (fun op inside => (active_sent member).symm ▸ inside) rfl
  | cancel request member =>
    exact unleaked.use (some request.op) (fun op inside => (active_cancel member).symm ▸ inside) rfl
  | ask op ptr => exact unleaked.use (some op) (fun _ inside => inside) rfl
  | withdraw op ptr others whole =>
    exact unleaked.use (some op) (fun op inside => (active_withdraw whole).symm ▸ inside) rfl
  | finish request member =>
    have used : ({ m with ptrEvents := .used request.ptr (some request.op) :: m.ptrEvents } :
        Memory).Unleaked ptrOf := unleaked.use (some request.op) (fun _ inside => inside) rfl
    exact used.give (pinned.inFlight request member) (active_erase member) rfl
  | release request others whole =>
    have member : request ∈ m.releasing := by
      rw [whole]
      exact Multiset.mem_cons_self _ _
    exact unleaked.give (pinned.releasing request member) (active_release whole) rfl
  | free op ptr others whole known => exact unleaked.give known (active_free whole) rfl

end Unleaked

end Memory

def Frame.cancels : Frame → Option Nat
  | .call _ code => code.cancels
  | _ => none

def State.CancelCalled (s : State) (op : Nat) : Prop :=
  (∃ result, (op, result) ∈ s.cancelResults) ∨
    ∃ stack ∈ s.threads, ∃ frame ∈ stack, frame.cancels = some op

theorem Restack.cancels (restack : Restack config s thread act (frame :: rest) moved)
    (accepted : s.failsRecv ⟨thread, act⟩ = false) (cancels : frame.cancels = some op) :
    frame ∈ moved := by
  have posting : ∀ {code : Code}, code.posting = true → code.cancels = some op → False := by
    intro code posts cancels
    cases code <;> cases posts <;> cases cancels
  cases restack with
  | control stack moved control =>
    cases control with
    | send => simp
    | recv => simp
    | progress => simp
    | contextProgress => simp
    | _ => cases cancels
  | lock stack moved locks => cases locks <;> cases cancels
  | posted _ _ _ posts => exact (posting posts cancels).elim
  | early _ _ _ _ posts => exact (posting posts cancels).elim
  | inplace _ _ _ _ _ posts => exact (posting posts cancels).elim
  | recvDirect => simp
  | recvFailed _ _ _ _ _ failed worker =>
    rw [failed, failsRecv_failed worker] at accepted
    cases accepted
  | _ => cases cancels

namespace State.CancelCalled

private theorem move (called : s.CancelCalled op) (found : s.threads[thread]? = some stack)
    (threads : t.threads = s.threads.set thread moved) (tops : Tops stack moved)
    (results : ∀ entry ∈ s.cancelResults, entry ∈ t.cancelResults)
    (top : ∀ frame, stack.head? = some frame → frame.cancels = some op →
      (∃ result, (op, result) ∈ t.cancelResults) ∨ ∃ frame ∈ moved, frame.cancels = some op) :
    t.CancelCalled op := by
  have inside : moved ∈ t.threads := by
    rw [threads]
    exact List.mem_set (List.getElem?_eq_some_iff.mp found).1 _
  rcases called with ⟨result, member⟩ | ⟨old, member, frame, within, cancels⟩
  · exact .inl ⟨result, results _ member⟩
  · obtain ⟨index, here⟩ := List.getElem?_of_mem member
    by_cases same : thread = index
    · subst same
      obtain rfl : stack = old := Option.some.inj (found.symm.trans here)
      rcases tops.mem within with kept | first
      · exact .inr ⟨moved, inside, frame, kept, cancels⟩
      · exact (top frame first cancels).imp id fun ⟨next, kept, still⟩ =>
          ⟨moved, inside, next, kept, still⟩
    · refine .inr ⟨old, ?_, frame, within, cancels⟩
      rw [threads]
      exact List.mem_of_getElem? (by rw [List.getElem?_set_ne same, here])

theorem effect (called : s.CancelCalled op) (accepted : s.failsRecv ⟨thread, act⟩ = false)
    (effect : Effect config s thread act t) : t.CancelCalled op := by
  have results : t.cancelResults = s.cancelResults := by
    cases effect with
    | returnCallback op via =>
      unfold State.returnCallback
      split <;> rfl
    | _ => rfl
  have moves := effect_moves effect
  have whole : ∀ threads, Moves (Restack config s thread act) thread s.threads threads →
      t.threads = threads → t.CancelCalled op := by
    intro threads moves same
    cases moves with
    | same =>
      rcases called with ⟨result, member⟩ | under
      · exact .inl ⟨result, results ▸ member⟩
      · exact .inr (same ▸ under)
    | move stack moved found restack =>
      refine called.move found same restack.tops (fun entry member => results ▸ member) ?_
      intro frame first cancels
      cases stack with
      | nil => cases first
      | cons head rest =>
        cases first
        exact .inr ⟨frame, restack.cancels accepted cancels, cancels⟩
  exact whole _ moves rfl

theorem cancelEffect (called : s.CancelCalled op) (sound : t.fault = none)
    (effect : CancelEffect config s thread act t) : t.CancelCalled op := by
  have same : ∀ entry ∈ s.cancelResults, entry ∈ s.cancelResults := fun _ => id
  cases effect with
  | bad user code op rest t found works gone fault => simp [sound] at fault
  | canceledNull => cases sound
  | refuse other post =>
    exact called.imp (fun ⟨result, member⟩ => ⟨result, List.mem_cons_of_mem _ member⟩) id
  | again => exact called
  | canceledOwn => exact called
  | canceledShared => exact called
  | begin other post stack found =>
    refine called.move found rfl (.push [_] _) same fun frame first cancels => .inr ?_
    exact ⟨frame, List.mem_cons_of_mem _ (List.mem_of_mem_head? first), cancels⟩
  | sendCanceled comm request rest found =>
    refine called.move found rfl (.push [_] _) same fun frame first cancels => .inr ?_
    exact ⟨frame, List.mem_cons_of_mem _ (List.mem_of_mem_head? first), cancels⟩
  | ask user other ptr rest found =>
    refine called.move found rfl (.replace _ [_] _) same fun frame first cancels => ?_
    cases first
    exact .inr ⟨_, List.mem_cons_self, cancels⟩
  | looped user other rest found =>
    cases user with
    | none =>
      refine called.move found rfl (.replace _ [_] _) same fun frame first cancels => ?_
      cases first
      exact .inr ⟨_, List.mem_cons_self, cancels⟩
    | some comm =>
      refine called.move found rfl (.replace _ [_] _) same fun frame first cancels => ?_
      cases first
      exact .inr ⟨_, List.mem_cons_self, cancels⟩
  | withdraw user other ptr rest found =>
    refine called.move found rfl (.replace _ [_] _) same fun frame first cancels => ?_
    cases first
    exact .inr ⟨_, List.mem_cons_self, cancels⟩
  | missed user other rest found =>
    refine called.move found rfl (.replace _ [] _) (fun _ => List.mem_cons_of_mem _)
      fun frame first cancels => .inl ⟨false, ?_⟩
    cases first
    cases cancels
    exact List.mem_cons_self
  | free user other ptr rest found =>
    refine called.move found rfl (.replace _ [] _) (fun _ => List.mem_cons_of_mem _)
      fun frame first cancels => .inl ⟨true, ?_⟩
    cases first
    cases cancels
    exact List.mem_cons_self

theorem of_top (found : s.threads[thread]? = some (frame :: rest)) (cancels : frame.cancels = some op) :
    s.CancelCalled op :=
  .inr ⟨_, List.mem_of_getElem? found, frame, List.mem_cons_self, cancels⟩

end State.CancelCalled

/-- UCX cancels receives for which cancel was called, and the code loses no receive. -/
structure State.Asked (s : State) : Prop where
  live : ∀ ptr ∈ s.canceling, ∃ request ∈ s.inFlight, request.ptr = ptr
  canceling : ∀ request ∈ s.inFlight, request.ptr ∈ s.canceling →
    s.CancelCalled request.op ∧ PostedAs s.posts request.op fun post => post.kind ≠ .send
  canceled : ∀ op ∈ s.canceled, s.CancelCalled op
  withdrawn : ∀ op ∈ Event.canceledOps s.history, s.CancelCalled op
  dropped : ∀ op ∈ s.dropped, PostedAs s.posts op fun post => post.kind = .send

namespace State.Asked

theorem initial (threads : Nat) : (State.initial threads).Asked where
  live := nofun
  canceling := nofun
  canceled op member := by simp [State.initial, State.canceled] at member
  withdrawn op member := by simp [State.initial] at member
  dropped := nofun

private theorem live_take (asked : s.Asked) (inFlight : t.inFlight = s.inFlight.erase request)
    (canceling : t.canceling = s.canceling.filter (· ≠ request.ptr)) (ptr : Nat)
    (member : ptr ∈ t.canceling) : ∃ request ∈ t.inFlight, request.ptr = ptr := by
  rw [canceling, List.mem_filter] at member
  obtain ⟨other, inside, rfl⟩ := asked.live ptr member.1
  refine ⟨other, ?_, rfl⟩
  have different : other ≠ request := by
    rintro rfl
    simpa using member.2
  rw [inFlight]
  exact (List.mem_erase_of_ne different).mpr inside

theorem effect (asked : s.Asked) (sound : s.Sound) (accepted : s.failsRecv ⟨thread, act⟩ = false)
    (effect : Effect config s thread act t) : t.Asked := by
  obtain ⟨more, grown⟩ := (effect_records effect).grown
  have still : ∀ {op}, s.CancelCalled op → t.CancelCalled op := fun called =>
    called.effect accepted effect
  refine ⟨?_, ?_, ?_, ?_, ?_⟩
  · cases effect_flight effect with
    | same inFlight canceling =>
      rw [inFlight, canceling]
      exact asked.live
    | post request _ _ inFlight canceling =>
      intro ptr member
      rw [canceling] at member
      obtain ⟨other, inside, same⟩ := asked.live ptr member
      exact ⟨other, inFlight ▸ List.mem_append_left _ inside, same⟩
    | take request _ inFlight canceling => exact asked.live_take inFlight canceling
  · intro request inside cancels
    have known : request ∈ s.inFlight → request.ptr ∈ s.canceling →
        t.CancelCalled request.op ∧ PostedAs t.posts request.op fun post => post.kind ≠ .send := by
      intro inside cancels
      rw [← grown]
      exact (asked.canceling request inside cancels).imp still (PostedAs.append · more)
    cases effect_flight effect with
    | same inFlight canceling => exact known (inFlight ▸ inside) (canceling ▸ cancels)
    | post new _ fresh inFlight canceling =>
      rw [inFlight] at inside
      rw [canceling] at cancels
      rcases List.mem_append.mp inside with old | last
      · exact known old cancels
      · -- the pointer of a request that UCX was asked to cancel is not returned again
        obtain ⟨other, here, same⟩ := asked.live _ cancels
        rw [List.mem_singleton.mp last] at same
        rw [← same] at fresh
        exact absurd (sound.pinned.mem_inUse (Memory.mem_active_of_inFlight here)
          (sound.pinned.inFlight other here)) fresh
    | take other _ inFlight canceling =>
      rw [inFlight] at inside
      rw [canceling] at cancels
      exact known (List.mem_of_mem_erase inside) (List.mem_filter.mp cancels).1
  · intro op member
    rw [effect_canceled effect] at member
    exact still (asked.canceled op member)
  · intro op member
    have same : Event.canceledOps t.history = Event.canceledOps s.history := by
      cases effect with
      | returnCallback op via =>
        unfold State.returnCallback
        split <;> rfl
      | _ => rfl
    exact still (asked.withdrawn op (same ▸ member))
  · have old : ∀ op ∈ s.dropped, PostedAs t.posts op fun post => post.kind = .send := by
      rw [← grown]
      exact fun op member => (asked.dropped op member).append more
    cases effect with
    | returnCallback op via =>
      unfold State.returnCallback at old ⊢
      split at old <;> rename_i inplace <;> simp only [inplace] <;> exact old
    | sendFailed comm request rest found member worker =>
      obtain ⟨post, posted, _, _, sends⟩ := sound.attached.data request member
      exact List.forall_mem_cons.mpr ⟨⟨post, posted, (sends comm worker).1⟩, old⟩
    | recvFailed user code request rest found receives member worker =>
      rw [failsRecv_failed worker] at accepted
      cases accepted
    | recvEmpty user code request rest found receives member worker empty =>
      exact absurd empty (sound.attached.not_empty member)
    | _ => exact old

private theorem keep (asked : s.Asked) (still : ∀ {op}, s.CancelCalled op → t.CancelCalled op)
    (posts : t.posts = s.posts) (inFlight : t.inFlight = s.inFlight)
    (canceling : t.canceling = s.canceling) (canceled : t.canceled = s.canceled)
    (withdrawn : Event.canceledOps t.history = Event.canceledOps s.history)
    (dropped : t.dropped = s.dropped) : t.Asked where
  live := by
    rw [inFlight, canceling]
    exact asked.live
  canceling := by
    rw [inFlight, canceling, posts]
    exact fun request inside cancels => (asked.canceling request inside cancels).imp_left still
  canceled := by
    rw [canceled]
    exact fun op member => still (asked.canceled op member)
  withdrawn := by
    rw [withdrawn]
    exact fun op member => still (asked.withdrawn op member)
  dropped := by
    rw [dropped, posts]
    exact asked.dropped

private theorem take (asked : s.Asked) (member : request ∈ s.inFlight)
    (cancels : request.ptr ∈ s.canceling) (still : ∀ {op}, s.CancelCalled op → t.CancelCalled op)
    (posts : t.posts = s.posts) (inFlight : t.inFlight = s.inFlight.erase request)
    (canceling : t.canceling = s.canceling.filter (· ≠ request.ptr))
    (canceled : t.canceled = request.op ::ₘ s.canceled) (history : t.history = s.history)
    (dropped : t.dropped = s.dropped) : t.Asked where
  live := asked.live_take inFlight canceling
  canceling other inside cancels := by
    rw [inFlight] at inside
    rw [canceling] at cancels
    rw [posts]
    exact (asked.canceling other (List.mem_of_mem_erase inside)
      (List.mem_filter.mp cancels).1).imp_left still
  canceled op inside := by
    rw [canceled] at inside
    rcases Multiset.mem_cons.mp inside with rfl | old
    · exact still (asked.canceling request member cancels).1
    · exact still (asked.canceled op old)
  withdrawn op inside := by
    rw [history] at inside
    exact still (asked.withdrawn op inside)
  dropped := by
    rw [dropped, posts]
    exact asked.dropped

theorem cancelEffect (asked : s.Asked) (sound : s.Sound) (careful : s.careful thread = true)
    (effect : CancelEffect config s thread act t) : t.Asked := by
  have faultless := sound.cancelEffect_fault careful effect
  have still : ∀ {op}, s.CancelCalled op → t.CancelCalled op := fun called =>
    called.cancelEffect faultless effect
  cases effect with
  | bad user code op rest t found works gone fault => simp [faultless] at fault
  | canceledNull => cases faultless
  | again => exact asked
  | refuse => exact asked.keep still rfl rfl rfl rfl rfl rfl
  | begin => exact asked.keep still rfl rfl rfl rfl rfl rfl
  | looped user => cases user <;> exact asked.keep still rfl rfl rfl rfl rfl rfl
  | ask user op ptr rest found free known live =>
    have active := (cancelable_of_careful careful found).active
    refine ⟨?_, ?_, fun other member => still (asked.canceled other member),
      fun other member => still (asked.withdrawn other member), asked.dropped⟩
    · intro other member
      simp only [setStack_canceling, requestCancel_canceling] at member
      split at member
      · rename_i flying
        rcases List.mem_cons.mp member with rfl | old
        · obtain ⟨request, inside, same⟩ := List.mem_map.mp flying
          exact ⟨request, inside, same⟩
        · exact asked.live other old
      · exact asked.live other member
    · intro request inside cancels
      by_cases mine : request.op = op
      · subst mine
        exact ⟨still (.of_top found rfl), ((sound.settled.head found).2 _ rfl).2⟩
      · -- another request in progress has another pointer
        have different : request.ptr ≠ ptr :=
          sound.pinned.kept.ne (Memory.mem_active_of_inFlight inside) active
            (sound.pinned.inFlight request inside) known mine
        have before : request.ptr ∈ s.canceling := by
          simp only [setStack_canceling, requestCancel_canceling] at cancels
          split at cancels
          · exact (List.mem_cons.mp cancels).resolve_left different
          · exact cancels
        exact (asked.canceling request inside before).imp_left still
  | sendCanceled comm request rest found member worker cancels =>
    obtain ⟨post, posted, receive⟩ := (asked.canceling request member cancels).2
    obtain ⟨_, _, sends⟩ := (sound.attached.data request member).of_found posted
    exact absurd (sends comm worker).1 receive
  | canceledOwn user code request op shared rest found receives member worker cancels data =>
    obtain ⟨rfl, belongs⟩ := sound.attached.own sound.settled member data
    exact asked.take member cancels still rfl rfl rfl
      (canceled_enqueueCancelRecv (s := s.takeRequest request) (sound.settled.known belongs)) rfl rfl
  | canceledShared user code request op rest found receives member worker cancels data =>
    obtain ⟨rfl, _⟩ := sound.attached.shared member data
    exact asked.take member cancels still rfl rfl rfl
      (canceled_enqueueCancelRecv (s := s.takeRequest request) nofun) rfl rfl
  | missed user op rest found misses =>
    have outside : op ∉ s.cancelQueue user := by
      cases user <;> simp_all [foundCanceled]
    exact asked.keep still rfl rfl rfl (canceled_takeCanceled_of_not_mem config thread outside) rfl rfl
  | withdraw user op ptr rest found finds known live =>
    have member := mem_cancelQueue_of_found careful found finds
    have whole := canceled_takeCanceled_of_mem config thread (canceled_nodup sound.pinned) member
    have cb := (sound.settled.requestState ((sound.settled.head found).2 op rfl).1).1
    refine ⟨asked.live, fun request inside cancels =>
      (asked.canceling request inside cancels).imp_left still, ?_, ?_, asked.dropped⟩
    · intro other inside
      refine still (asked.canceled other ?_)
      rw [whole]
      exact Multiset.mem_cons_of_mem inside
    · intro other inside
      simp only [setStack_history, destroyData_history, logPtr_history, setCanceled_history,
        Event.canceledOps] at inside
      rcases Multiset.mem_cons.mp inside with rfl | old
      · refine still (asked.canceled _ ?_)
        rw [whole]
        simp [cb]
      · exact still (asked.withdrawn other old)
  | free user op ptr rest found free known live =>
    have inFlight := sound.pinned.inFlight_of_free found known
    refine asked.keep still rfl inFlight ?_ rfl rfl rfl
    -- the pointer that is freed is not one that UCX was asked to cancel
    refine List.filter_eq_self.mpr fun other member => decide_eq_true ?_
    obtain ⟨request, inside, rfl⟩ := asked.live other member
    rw [← inFlight] at inside
    simpa using (List.mem_filter.mp inside).2

end State.Asked

/-- Cancels come in time, and UCX reports no error for a receive. -/
def InTime (s : State) (action : Action) : Prop :=
  Careful s action ∧ s.failsRecv action = false

instance (s : State) (action : Action) : Decidable (InTime s action) :=
  inferInstanceAs (Decidable (_ ∧ _))

structure State.Canceling (s : State) : Prop extends s.Accounted where
  asked : s.Asked
  unleaked : s.memory.Unleaked s.ptrOf

namespace State.Canceling

theorem initial (threads : Nat) : (State.initial threads).Canceling where
  toAccounted := .initial threads
  asked := .initial threads
  unleaked := nofun

private theorem unleaked_step {error : Prop} (canceling : s.Canceling) (records : RecordStep s t)
    (correct : ¬ error) (memory : MemoryStep error t.posts t.ptrOf s.memory t.memory) :
    t.memory.Unleaked t.ptrOf := by
  have same : ∀ op < s.posts.length, t.ptrOf op = s.ptrOf op := fun _ known => records.ucxPtr known
  exact (canceling.unleaked.grow canceling.pinned same).step
    (canceling.pinned.grow records.grown same) correct memory

theorem step {action : Action} (canceling : s.Canceling) (inTime : InTime s action)
    (taken : step config s action = some t) : t.Canceling := by
  obtain ⟨careful, accepted⟩ := inTime
  have sound := canceling.toSound
  rcases step_cases taken with effect | effect
  · refine ⟨canceling.toAccounted.effect effect, canceling.asked.effect sound accepted effect, ?_⟩
    exact canceling.unleaked_step (effect_records effect) (by simp [accepted])
      (effect_memory sound.attached sound.pinned effect)
  · refine ⟨canceling.toAccounted.cancelEffect careful effect,
      canceling.asked.cancelEffect sound careful effect, ?_⟩
    exact canceling.unleaked_step
      (cancelEffect_records effect (sound.cancelEffect_fault careful effect)) id
      (cancelEffect_memory sound.settled sound.attached sound.pinned careful effect)

theorem of_reaches {threads : Nat}
    (reached : Reaches (Oomph.Ucx.step config) InTime (State.initial threads) s) : s.Canceling :=
  reached.invariant State.Canceling (.initial threads) fun _ _ _ canceling inTime taken =>
    canceling.step inTime taken

end State.Canceling

theorem dropped_of_effect (attached : s.Attached) (accepted : act.isError = false)
    (effect : Effect config s thread act t) : t.dropped = s.dropped := by
  cases effect with
  | returnCallback op via =>
    unfold State.returnCallback
    split <;> rfl
  | sendFailed => cases accepted
  | recvFailed => cases accepted
  | recvEmpty user code request rest found receives member worker empty =>
    exact absurd empty (attached.not_empty member)
  | _ => rfl

theorem dropped_of_cancelEffect (asked : s.Asked) (sound : s.Sound) (faultless : t.fault = none)
    (effect : CancelEffect config s thread act t) : t.dropped = s.dropped := by
  cases effect with
  | bad user code op rest t found works gone fault => simp [faultless] at fault
  | looped user => cases user <;> rfl
  | sendCanceled comm request rest found member worker cancels =>
    obtain ⟨post, posted, receive⟩ := (asked.canceling request member cancels).2
    obtain ⟨_, _, sends⟩ := (sound.attached.data request member).of_found posted
    exact absurd (sends comm worker).1 receive
  | _ => rfl

theorem dropped_of_reaches {threads : Nat}
    (reached : Reaches (step config) (fun s action => InTime s action ∧ action.act.isError = false)
      (State.initial threads) s) : s.dropped = [] := by
  refine (reached.invariant (fun s => s.Canceling ∧ s.dropped = []) ⟨.initial threads, rfl⟩ ?_).2
  rintro before action after ⟨canceling, nothing⟩ ⟨inTime, accepted⟩ taken
  refine ⟨canceling.step inTime taken, Eq.trans ?_ nothing⟩
  rcases step_cases taken with effect | effect
  · exact dropped_of_effect canceling.toSound.attached accepted effect
  · exact dropped_of_cancelEffect canceling.asked canceling.toSound
      (canceling.toSound.cancelEffect_fault inTime.1 effect) effect

/-- UCX requests are used as UCX allows it, and no receive suffers from the cancel of another. -/
structure State.RequestLaw (s : State) : Prop where
  /-- Every pointer that is passed to UCX or to `request_data::get` was returned for the
  operation it is used for, and has not been freed since. -/
  lawful : Lease.Lawful s.ptrEvents
  faultless : s.fault = none
  /-- A request is freed once, and is not freed yet only as long as its operation needs it. -/
  freed : ∀ ptr owner, s.ptrEvents.count (.lent ptr owner) = s.ptrEvents.count (.freed ptr owner) +
    if Lease.holder s.ptrEvents ptr = some owner then 1 else 0
  needed : ∀ ptr owner, Lease.holder s.ptrEvents ptr = some owner →
    ∃ op ∈ s.memory.active, owner = some op
  placed : s.waiting + Event.calledOps s.history + Event.canceledOps s.history =
    Multiset.range s.posts.length
  kept : ∀ op ∈ s.dropped, PostedAs s.posts op fun post => post.kind = .send
  cancels : ∀ op, op ∈ s.canceled ∨ op ∈ Event.canceledOps s.history → s.CancelCalled op

/-- In every run in which each cancel asks UCX about a receive whose request has not been
freed, and finds out correctly whether it was cancelled, the law holds in every state.  Sends
are lost only to errors of UCX. -/
theorem requests_lawful (config : Config) (threads : Nat) {s : State}
    (reached : Reaches (step config) InTime (State.initial threads) s) :
    s.RequestLaw ∧
      (Reaches (step config) (fun s action => InTime s action ∧ action.act.isError = false)
        (State.initial threads) s → s.dropped = []) := by
  refine ⟨?_, dropped_of_reaches⟩
  have canceling := Canceling.of_reaches reached
  have lawful := canceling.pinned.ledger.lawful
  refine ⟨lawful, canceling.fault, lawful.count, ?_, canceling.consistent.placed,
    canceling.asked.dropped, ?_⟩
  · intro ptr owner held
    obtain ⟨op, member, mine, _⟩ := canceling.unleaked ptr owner held
    exact ⟨op, member, mine⟩
  · rintro op (waits | withdrawn)
    · exact canceling.asked.canceled op waits
    · exact canceling.asked.withdrawn op withdrawn

/-- A receive is cancelled while UCX has it in progress, and its request is freed. -/
theorem requests_lawful_after_cancel :
    ∃ s, Reaches (step ⟨20, true⟩) InTime (State.initial 1) s ∧ s.cancelResults = [(0, true)] ∧
      s.ptrEvents.count (.freed 3 (some 0)) = 1 ∧ s.RequestLaw := by
  obtain ⟨s, reached, results, freed⟩ := exists_of_run (step ⟨20, true⟩) InTime (State.initial 1)
    [⟨0, .getCommunicator⟩, ⟨0, .recv 0 1 7⟩, ⟨0, .advance⟩, ⟨0, .ucx (.inProgress 3)⟩,
      ⟨0, .cancel 0⟩, ⟨0, .advance⟩, ⟨0, .ucx (.callback ⟨3, 0, none⟩ .canceled)⟩,
      ⟨0, .ucx (.progressed false)⟩, ⟨0, .advance⟩, ⟨0, .advance⟩]
    (fun s => s.cancelResults = [(0, true)] ∧ s.ptrEvents.count (.freed 3 (some 0)) = 1)
      (by decide +kernel)
  exact ⟨s, reached, results, freed, (requests_lawful ⟨20, true⟩ 1 reached).1⟩

/-- UCX completes a receive while another thread makes progress, and uses the memory of its
request for the next receive.  A cancel of the first receive, which is not ready, then
cancels the second one. -/
theorem cancel_hits_other_receive :
    ∃ s, Reaches (step ⟨20, true⟩) (fun _ action => action.act.isError = false)
        (State.initial 2) s ∧
      s.cancelResults = [(0, false)] ∧ s.cancelQueue (some 0) = [1] ∧
      s.posts[1]? = some ⟨0, .recv, 1, 8, false⟩ ∧ s.inFlight = [] ∧
      ¬ Lease.Lawful s.ptrEvents ∧ ¬ s.RequestLaw := by
  obtain ⟨s, reached, results, waits, posted, done, events⟩ := exists_of_run (step ⟨20, true⟩)
      (fun _ action => action.act.isError = false) (State.initial 2)
    [⟨0, .getCommunicator⟩, ⟨1, .getCommunicator⟩, ⟨0, .recv 0 1 7⟩, ⟨0, .advance⟩,
      ⟨0, .ucx (.inProgress 3)⟩, ⟨1, .progress 1⟩, ⟨1, .ucx (.progressed false)⟩, ⟨1, .advance⟩,
      ⟨1, .ucx (.callback ⟨3, 0, none⟩ .ok)⟩, ⟨1, .ucx (.progressed false)⟩, ⟨0, .recv 0 1 8⟩,
      ⟨0, .advance⟩, ⟨0, .ucx (.inProgress 3)⟩, ⟨0, .cancel 0⟩, ⟨0, .advance⟩,
      ⟨0, .ucx (.callback ⟨3, 1, none⟩ .canceled)⟩, ⟨0, .ucx (.progressed false)⟩, ⟨0, .advance⟩]
    (fun s => s.cancelResults = [(0, false)] ∧ s.cancelQueue (some 0) = [1] ∧
      s.posts[1]? = some ⟨0, .recv, 1, 8, false⟩ ∧ s.inFlight = [] ∧
      s.ptrEvents = [.used 3 (some 1), .used 3 (some 0), .lent 3 (some 1), .freed 3 (some 0), .used 3 (some 0), .lent 3 (some 0)])
      (by decide +kernel)
  have unlawful : ¬ Lease.Lawful s.ptrEvents := by
    rw [events]
    simp [Lease.Lawful, Lease.holder]
  exact ⟨s, reached, results, waits, posted, done, unlawful,
    fun law => unlawful law.lawful⟩

end Oomph.Ucx
