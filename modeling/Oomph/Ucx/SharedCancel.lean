import Oomph.Ucx.Effects
import Oomph.Machine.Run

namespace Oomph.Ucx

open Machine

/-! `context_impl::cancel_recv` keeps its result in a variable that every thread has once, for
all contexts, and that nothing resets.  A process has several contexts and these variables.
Its history says which shared receives UCX has cancelled and which searches were made, and
that is all the law of `cancel_recv` needs.
-/

/-- `recv_callback` has got `UCS_ERR_CANCELED` for a shared receive, or a thread has searched
the queue of a context for one. -/
inductive CancelEvent
  | canceled (context op : Nat)
  | searched (thread context op : Nat)
deriving DecidableEq, Repr

namespace CancelEvent

/-- UCX has cancelled the receive, and nobody has searched for it since. -/
def pending : List CancelEvent → Nat → Nat → Bool
  | [], _, _ => false
  | .canceled context op :: rest, asked, receive =>
    (context = asked ∧ op = receive) || pending rest asked receive
  | .searched _ context op :: rest, asked, receive =>
    !(context = asked ∧ op = receive) && pending rest asked receive

/-- A search of the thread, in whichever context, has found its receive. -/
def succeeded : List CancelEvent → Nat → Bool
  | [], _ => false
  | .canceled _ _ :: rest, thread => succeeded rest thread
  | .searched searcher context op :: rest, thread =>
    (searcher = thread && pending rest context op) || succeeded rest thread

end CancelEvent

structure Process where
  contexts : List State
  /-- The variables `found` of the threads. -/
  found : Nat → Bool
  history : List CancelEvent

structure ContextAction where
  context : Nat
  action : Action
deriving DecidableEq, Repr

namespace State

def cancelEvent (context : Nat) (s : State) (action : Action) : Option CancelEvent :=
  match s.threads[action.thread]?, action.act with
  | some (.call none (.cancelScan op) :: _), .advance =>
    some (.searched action.thread context op)
  | some (.call _ code :: _), .ucx (.callback request .canceled) =>
    match code.receives, s.requestData request.ptr with
    | true, { req := none, sharedReq := some op } => some (.canceled context op)
    | _, _ => none
  | _, _ => none

@[simps -fullyApplied]
def setFound (found : Nat → Bool) (s : State) : State :=
  { s with found }

end State

namespace Process

def initial (contexts threads : Nat) : Process where
  contexts := List.replicate contexts (State.initial threads)
  found _ := false
  history := []

/-- A step of one context.  After a use of freed memory the process may do anything. -/
def step (configs : Nat → Config) (p : Process) (move : ContextAction) : Option Process :=
  if p.contexts.all (·.fault.isNone) then
    match p.contexts[move.context]? with
    | none => none
    | some s =>
      (Ucx.step (configs move.context) (s.setFound p.found) move.action).map fun t =>
        { contexts := p.contexts.set move.context t
          found := t.found
          history := (s.cancelEvent move.context move.action).toList ++ p.history }
  else none

def Faultless (p : Process) : Prop :=
  ∀ s ∈ p.contexts, s.fault = none

end Process

variable {config : Config} {configs : Nat → Config} {s t : State} {thread context : Nat}
  {rest : List Frame} {act : Act} {action : Action} {op other : Nat}

inductive SharedStep (context : Nat) (s : State) (action : Action) (t : State) : Prop
  | same : s.cancelEvent context action = none → t.cancelRecvReqQueue = s.cancelRecvReqQueue →
      t.found = s.found → SharedStep context s action t
  | canceled (op : Nat) : s.cancelEvent context action = some (.canceled context op) →
      t.cancelRecvReqQueue = s.cancelRecvReqQueue ++ [op] → t.found = s.found →
      SharedStep context s action t
  | searched (op : Nat) : s.cancelEvent context action = some (.searched action.thread context op) →
      t.cancelRecvReqQueue = s.cancelRecvReqQueue.filter (· ≠ op) →
      t.found = Function.update s.found action.thread
        (s.found action.thread || op ∈ s.cancelRecvReqQueue) → SharedStep context s action t

private theorem shared_same (silent : s.cancelEvent context ⟨thread, act⟩ = none)
    (taken : step config s ⟨thread, act⟩ = some t) (faultless : t.fault = none) :
    t.cancelRecvReqQueue = s.cancelRecvReqQueue ∧ t.found = s.found := by
  rcases step_cases taken with effect | effect
  · cases effect with
    | returnCallback op via =>
      unfold State.returnCallback
      split <;> exact ⟨rfl, rfl⟩
    | _ => exact ⟨rfl, rfl⟩
  · cases effect with
    | bad user code op rest t found works gone fault => simp [faultless] at fault
    | canceledNull => cases faultless
    | canceledShared user code request op rest found receives member worker cancels data =>
      simp [State.cancelEvent, found, receives, data] at silent
    | looped user => cases user <;> exact ⟨rfl, rfl⟩
    | missed user op rest found =>
      cases user with
      | none => simp [State.cancelEvent, found] at silent
      | some comm => exact ⟨rfl, rfl⟩
    | withdraw user op ptr rest found =>
      cases user with
      | none => simp [State.cancelEvent, found] at silent
      | some comm => exact ⟨rfl, rfl⟩
    | _ => exact ⟨rfl, rfl⟩

namespace State

/-- A cancel that finds its receive marks it, whatever it finds in its request. -/
theorem withdraw_eq : (s.withdraw thread none op rest).cancelRecvReqQueue = s.cancelRecvReqQueue ∧
    (s.withdraw thread none op rest).found = s.found ∧
    (s.withdraw thread none op rest).cancelResults = s.cancelResults ∧
    (s.withdraw thread none op rest).heap = ((s.releaseSelfRef op).setCanceled op).heap ∧
    (s.withdraw thread none op rest).scheduled = ((s.releaseSelfRef op).setCanceled op).scheduled ∧
    ((s.withdraw thread none op rest).fault = none → (s.withdraw thread none op rest).threads =
      s.threads.set thread (.call none (.cancelFree op) :: rest)) := by
  unfold withdraw withRequest
  split
  · split
    · exact ⟨rfl, rfl, rfl, rfl, rfl, fun _ => rfl⟩
    · exact ⟨rfl, rfl, rfl, rfl, rfl, nofun⟩
  · exact ⟨rfl, rfl, rfl, rfl, rfl, nofun⟩

theorem scanCancel_shared : (s.scanCancel config thread none op rest).cancelRecvReqQueue =
      s.cancelRecvReqQueue.filter (· ≠ op) ∧
    (s.scanCancel config thread none op rest).found =
      Function.update s.found thread (s.found thread || op ∈ s.cancelRecvReqQueue) := by
  unfold scanCancel
  split
  · exact ⟨withdraw_eq.1, withdraw_eq.2.1⟩
  · exact ⟨rfl, rfl⟩

end State

theorem step_search (faultless : s.fault = none)
    (found : s.threads[thread]? = some (.call none (.cancelScan op) :: rest)) :
    step config s ⟨thread, .advance⟩ = some (s.scanCancel config thread none op rest) := by
  simp [step, faultless, found, State.advance]

theorem step_canceled {user : Option Nat} {code : Code} {request : UcxRequest}
    (found : s.threads[thread]? = some (.call user code :: rest)) (receives : code.receives = true)
    (data : s.requestData request.ptr = { req := none, sharedReq := some op })
    (taken : step config s ⟨thread, .ucx (.callback request .canceled)⟩ = some t) :
    t = (s.takeRequest request).enqueueCancelRecv none op := by
  unfold step at taken
  split at taken
  · cases taken
  · cases code with
    | recvLoop tries =>
      simp only [found, State.answered, Option.ite_none_right_eq_some, Option.some.injEq,
        State.recvCallback, data] at taken
      exact taken.2.symm
    | cancelLoop op =>
      simp only [found, State.answered, Option.ite_none_right_eq_some, Option.some.injEq,
        State.recvCallback, data] at taken
      exact taken.2.symm
    | _ => cases receives

theorem fault_of_step (taken : step config s action = some t) : s.fault = none := by
  unfold step at taken
  split at taken
  · cases taken
  · simpa using ‹¬ s.fault.isSome = true›

theorem step_shared (context : Nat) (taken : step config s action = some t)
    (faultless : t.fault = none) : SharedStep context s action t := by
  obtain ⟨thread, act⟩ := action
  have sound := fault_of_step taken
  cases event : s.cancelEvent context ⟨thread, act⟩ with
  | none =>
    obtain ⟨queue, found⟩ := shared_same event taken faultless
    exact .same event queue found
  | some made =>
    unfold State.cancelEvent at event
    split at event
    · rename_i op rest found advances
      cases event
      obtain rfl : act = .advance := advances
      rw [step_search sound found] at taken
      cases taken
      exact .searched op (by simp [State.cancelEvent, found]) State.scanCancel_shared.1
        State.scanCancel_shared.2
    · rename_i user code rest request found callback
      split at event
      · rename_i op receives data
        cases event
        obtain rfl : act = .ucx (.callback request .canceled) := callback
        rw [step_canceled found receives data taken]
        exact .canceled op (by simp [State.cancelEvent, found, receives, data]) rfl rfl
      · cases event
    · cases event

namespace Process

variable {p after : Process}

/-- The history tells what is in the queues and in the variables. -/
structure Recorded (p : Process) : Prop where
  queues : ∀ context s, p.contexts[context]? = some s →
    ∀ op, op ∈ s.cancelRecvReqQueue ↔ CancelEvent.pending p.history context op = true
  found : ∀ thread, p.found thread = CancelEvent.succeeded p.history thread

theorem recorded_initial (contexts threads : Nat) : (initial contexts threads).Recorded where
  queues context s found op := by
    rw [List.eq_of_mem_replicate (List.mem_of_getElem? found)]
    simp [State.initial, initial, CancelEvent.pending]
  found thread := rfl

theorem step_cases {move : ContextAction} (taken : step configs p move = some after) :
    p.Faultless ∧ ∃ s t, p.contexts[move.context]? = some s ∧
      Ucx.step (configs move.context) (s.setFound p.found) move.action = some t ∧
      after = { contexts := p.contexts.set move.context t
                found := t.found
                history := (s.cancelEvent move.context move.action).toList ++ p.history } := by
  unfold step at taken
  split at taken
  · rename_i sound
    cases found : p.contexts[move.context]? with
    | none => simp [found] at taken
    | some s =>
      simp only [found] at taken
      obtain ⟨t, stepped, rfl⟩ := Option.map_eq_some_iff.mp taken
      refine ⟨fun s member => ?_, s, t, rfl, stepped, rfl⟩
      simpa using List.all_eq_true.mp sound s member
  · cases taken

private theorem lookup_set {contexts : List State} {asked : Nat} {u : State}
    (here : (contexts.set context t)[asked]? = some u) :
    asked = context ∧ u = t ∨ asked ≠ context ∧ contexts[asked]? = some u := by
  by_cases same : asked = context
  · subst same
    have inside := (List.getElem?_eq_some_iff.mp here).1
    rw [List.length_set] at inside
    rw [List.getElem?_set_self inside] at here
    exact .inl ⟨rfl, (Option.some.inj here).symm⟩
  · rw [List.getElem?_set_ne (Ne.symm same)] at here
    exact .inr ⟨same, here⟩

theorem Recorded.step {move : ContextAction} (recorded : p.Recorded)
    (taken : step configs p move = some after) (sound : after.Faultless) : after.Recorded := by
  obtain ⟨_, s, t, found, stepped, rfl⟩ := step_cases taken
  obtain ⟨context, action⟩ := move
  have faultless : t.fault = none :=
    sound t (List.mem_set (List.getElem?_eq_some_iff.mp found).1 t)
  have event : (s.setFound p.found).cancelEvent context action = s.cancelEvent context action := rfl
  have before := recorded.queues context s found
  cases step_shared context stepped faultless with
  | same silent queue flags =>
    rw [event] at silent
    refine ⟨fun asked u here op => ?_, fun thread => ?_⟩
    · simp only [silent, Option.toList_none, List.nil_append]
      rcases lookup_set here with ⟨rfl, rfl⟩ | ⟨_, old⟩
      · rw [queue]
        exact before op
      · exact recorded.queues asked u old op
    · simp only [silent, Option.toList_none, List.nil_append, flags]
      exact recorded.found thread
  | canceled op made queue flags =>
    rw [event] at made
    refine ⟨fun asked u here receive => ?_, fun thread => ?_⟩
    · simp only [made, Option.toList_some, List.singleton_append, CancelEvent.pending,
        Bool.or_eq_true, decide_eq_true_eq]
      rcases lookup_set here with ⟨rfl, rfl⟩ | ⟨other, old⟩
      · rw [queue, List.mem_append, List.mem_singleton, ← before receive]
        constructor
        · rintro (old | rfl)
          · exact .inr old
          · exact .inl ⟨rfl, rfl⟩
        · rintro (⟨_, rfl⟩ | old)
          · exact .inr rfl
          · exact .inl old
      · rw [recorded.queues asked u old receive]
        simp [Ne.symm other]
    · simp only [made, Option.toList_some, List.singleton_append, CancelEvent.succeeded, flags]
      exact recorded.found thread
  | searched op made queue flags =>
    rw [event] at made
    refine ⟨fun asked u here receive => ?_, fun thread => ?_⟩
    · simp only [made, Option.toList_some, List.singleton_append, CancelEvent.pending,
        Bool.and_eq_true, Bool.not_eq_true', decide_eq_false_iff_not]
      rcases lookup_set here with ⟨rfl, rfl⟩ | ⟨other, old⟩
      · rw [queue, List.mem_filter, ← before receive, decide_eq_true_eq, and_comm, ne_comm]
        simp
      · rw [recorded.queues asked u old receive]
        simp [Ne.symm other]
    · simp only [made, Option.toList_some, List.singleton_append, CancelEvent.succeeded, flags]
      by_cases mine : action.thread = thread
      · subst mine
        simp only [Function.update_self, State.setFound_found, decide_true, Bool.true_and]
        rw [recorded.found, Bool.or_comm]
        congr 1
        rw [Bool.eq_iff_iff, decide_eq_true_iff]
        exact before op
      · rw [Function.update_of_ne (Ne.symm mine)]
        simp only [mine, decide_false, Bool.false_and, Bool.false_or]
        exact recorded.found thread

theorem recorded_of_reaches {contexts threads : Nat}
    (reached : Reaches (step configs) (fun _ _ => True) (initial contexts threads) p)
    (sound : p.Faultless) : p.Recorded := by
  refine reached.invariant (fun p => p.Faultless → p.Recorded)
    (fun _ => recorded_initial contexts threads) ?_ sound
  intro before move after recorded _ taken sound
  exact (recorded (step_cases taken).1).step taken sound

end Process

/-- What a cancel of a shared receive is to do when it searches the queue, given whether UCX
has cancelled the receive: it returns false, or it withdraws the receive and goes on to
free its request. -/
structure State.CancelRecvLaw (s after : State) (thread op : Nat) (rest : List Frame)
    (canceled : Bool) : Prop where
  returns : after.cancelResults = (op, false) :: s.cancelResults ↔ canceled = false
  withdraws : canceled = true → after.scheduled = countDown s.scheduled (s.heap op).scheduled ∧
    after.heap = Function.update s.heap op
      { s.heap op with selfPtr := false, ready := true, canceled := true }
  frees : canceled = true → after.fault = none →
    after.threads[thread]? = some (.call none (.cancelFree op) :: rest)
  leaves : canceled = false → after.heap = s.heap ∧ after.scheduled = s.scheduled ∧
    after.requestData = s.requestData ∧ after.inUse = s.inUse ∧ after.threads[thread]? = some rest
  putsBack : after.cancelRecvReqQueue = s.cancelRecvReqQueue.filter (· ≠ op)

/-- What follows a withdrawal: the request is freed and the cancel returns true. -/
theorem State.cancelFree_returns {user : Option Nat}
    (found : s.threads[thread]? = some (.call user (.cancelFree op) :: rest))
    (taken : step config s ⟨thread, .advance⟩ = some t) (faultless : t.fault = none) :
    t.cancelResults = (op, true) :: s.cancelResults ∧ t.threads[thread]? = some rest ∧
      ∃ ptr ∈ s.inUse, (s.heap op).ucxPtr = some ptr ∧ t.inUse = s.inUse.erase ptr := by
  have inside := (List.getElem?_eq_some_iff.mp found).1
  simp only [step, fault_of_step taken, Option.isSome_none, Bool.false_eq_true, if_false, found,
    State.advance, freeCanceled, Option.map_eq_some_iff] at taken
  obtain ⟨_, _, rfl⟩ := taken
  rcases withRequest_cases (s := s) op .freed _ with ⟨ptr, live, held, whole⟩ | ⟨_, fault⟩
  · rw [whole]
    exact ⟨rfl, List.getElem?_set_self inside, ptr, live, held, rfl⟩
  · simp [faultless] at fault

/-- The law does not read the variables of the threads. -/
theorem State.cancelRecvLaw_setFound (found : Nat → Bool) {canceled : Bool} :
    (s.setFound found).CancelRecvLaw t thread op rest canceled ↔
      s.CancelRecvLaw t thread op rest canceled :=
  ⟨fun law => ⟨law.returns, law.withdraws, law.frees, law.leaves, law.putsBack⟩,
    fun law => ⟨law.returns, law.withdraws, law.frees, law.leaves, law.putsBack⟩⟩

theorem State.cancelRecvLaw_iff {canceled : Bool}
    (found : s.threads[thread]? = some (.call none (.cancelScan op) :: rest))
    (queued : op ∈ s.cancelRecvReqQueue ↔ canceled = true) :
    s.CancelRecvLaw (s.scanCancel config thread none op rest) thread op rest canceled ↔
      canceled = true ∨ s.found thread = false := by
  have inside := (List.getElem?_eq_some_iff.mp found).1
  cases finds : s.foundCanceled thread none op with
  | false =>
    obtain ⟨fresh, absent⟩ := Bool.or_eq_false_iff.mp finds
    have free : canceled = false := by
      simpa [show op ∉ s.cancelRecvReqQueue from of_decide_eq_false absent] using queued
    subst free
    simp only [fresh, or_true, iff_true, scanCancel, finds, Bool.false_eq_true, if_false]
    exact ⟨iff_of_true rfl rfl, nofun, nofun,
      fun _ => ⟨rfl, rfl, rfl, rfl, List.getElem?_set_self inside⟩, rfl⟩
  | true =>
    have scanned : s.scanCancel config thread none op rest =
        (s.takeCanceled config thread none op).withdraw thread none op rest := by
      simp [scanCancel, finds]
    rw [scanned]
    obtain ⟨queue, _, results, heap, scheduled, stack⟩ :=
      @withdraw_eq (s.takeCanceled config thread none op) thread rest op
    -- the cancel goes on, so it has not returned
    have goesOn : ¬ ((s.takeCanceled config thread none op).withdraw thread none op
        rest).cancelResults = (op, false) :: s.cancelResults := by
      rw [results]
      exact fun same => List.cons_ne_self _ _ same.symm
    cases canceled with
    | false =>
      have stale : s.found thread = true := by
        rcases Bool.or_eq_true_iff.mp finds with stale | here
        · exact stale
        · exact absurd (queued.mp (of_decide_eq_true here)) (by decide)
      simp only [stale, Bool.false_eq_true, Bool.true_eq_false, or_self, iff_false]
      exact fun law => goesOn (law.returns.mpr rfl)
    | true =>
      simp only [true_or, iff_true]
      refine ⟨iff_of_false goesOn (by decide), fun _ => ⟨scheduled.trans ?_, heap.trans ?_⟩,
        fun _ sound => ?_, nofun, queue⟩
      · simp [setCanceled, releaseSelfRef]
      · simp [setCanceled, releaseSelfRef]
      · rw [stack sound]
        exact List.getElem?_set_self inside

/-- A thread that searches for a shared receive does what it should just when UCX has
cancelled the receive, or no search of this thread has ever found its receive: what a
successful search stores in `found` is taken for the result of all later ones.  A thread that
goes on to free the request frees that of its receive, and its cancel returns true. -/
theorem Process.shared_cancel_lawful_iff {contexts threads : Nat} {p : Process}
    (reached : Reaches (Process.step configs) (fun _ _ => True) (initial contexts threads) p)
    (sound : p.Faultless) (here : p.contexts[context]? = some s)
    (found : s.threads[thread]? = some (.call none (.cancelScan op) :: rest)) :
    (∃ after, Process.step configs p ⟨context, thread, .advance⟩ = some after ∧
      ∃ t, after.contexts[context]? = some t ∧
        (s.CancelRecvLaw t thread op rest (CancelEvent.pending p.history context op) ↔
          CancelEvent.pending p.history context op = true ∨
            CancelEvent.succeeded p.history thread = false)) ∧
    ∀ u freed, u.threads[thread]? = some (.call none (.cancelFree op) :: rest) →
      Ucx.step (configs context) u ⟨thread, .advance⟩ = some freed → freed.fault = none →
      freed.cancelResults = (op, true) :: u.cancelResults ∧ freed.threads[thread]? = some rest ∧
        ∃ ptr ∈ u.inUse, (u.heap op).ucxPtr = some ptr ∧ freed.inUse = u.inUse.erase ptr := by
  refine ⟨?_, fun u freed frees taken faultless => State.cancelFree_returns frees taken faultless⟩
  have recorded := recorded_of_reaches reached sound
  have faultless : s.fault = none := sound s (List.mem_of_getElem? here)
  have inside := (List.getElem?_eq_some_iff.mp here).1
  have searches : Ucx.step (configs context) (s.setFound p.found) ⟨thread, .advance⟩ =
      some ((s.setFound p.found).scanCancel (configs context) thread none op rest) :=
    step_search faultless found
  have faults : p.contexts.all (·.fault.isNone) = true :=
    List.all_eq_true.mpr fun u member => by simp [sound u member]
  refine ⟨_, by simp [Process.step, faults, here, searches]; rfl, _,
    List.getElem?_set_self inside, ?_⟩
  rw [← recorded.found thread, ← State.cancelRecvLaw_setFound p.found]
  exact State.cancelRecvLaw_iff (s := s.setFound p.found) found (recorded.queues context s here op)

/-- UCX cancels the first shared receive that a thread cancels. -/
theorem Process.shared_cancel_lawful_first :
    ∃ p s t, Reaches (Process.step fun _ => ⟨20, true⟩) (fun _ _ => True) (initial 1 1) p ∧
      p.contexts[0]? = some s ∧ CancelEvent.pending p.history 0 0 = true ∧
      s.CancelRecvLaw t 0 0 [] true := by
  have ran : (run (Process.step fun _ => ⟨20, true⟩) (fun _ _ => True) (initial 1 1)
      [⟨0, 0, .getCommunicator⟩, ⟨0, 0, .sharedRecv 0 1 7⟩, ⟨0, 0, .advance⟩,
        ⟨0, 0, .ucx (.inProgress 3)⟩, ⟨0, 0, .cancel 0⟩, ⟨0, 0, .advance⟩,
        ⟨0, 0, .ucx (.callback ⟨3, 0, none⟩ .canceled)⟩,
        ⟨0, 0, .ucx (.progressed false)⟩]).bind (fun p => p.contexts[0]?.map fun s =>
          decide ((∀ s ∈ p.contexts, s.fault = none) ∧
            CancelEvent.pending p.history 0 0 = true ∧
            s.threads[0]? = some [.call none (.cancelScan 0)])) = some true := by decide +kernel
  obtain ⟨p, reached, ran⟩ := Option.bind_eq_some_iff.mp ran
  obtain ⟨s, here, ran⟩ := Option.map_eq_some_iff.mp ran
  obtain ⟨sound, canceled, found⟩ := of_decide_eq_true ran
  have reached := reaches_of_run reached
  obtain ⟨⟨_, _, t, _, lawful⟩, _⟩ := shared_cancel_lawful_iff reached sound here found
  rw [canceled] at lawful
  exact ⟨p, s, t, reached, here, canceled, lawful.mpr (.inl rfl)⟩

/-- A thread cancels a shared receive of one context, and then one of another context that UCX
does not cancel.  The second cancel returns true as well: it withdraws the receive and frees
the request that UCX still has. -/
theorem Process.stale_found_withdraws :
    ∃ p s t after, Reaches (Process.step fun _ => ⟨20, true⟩) (fun _ _ => True) (initial 2 1) p ∧
      p.contexts[1]? = some s ∧ s.threads[0]? = some [.call none (.cancelScan 0)] ∧
      CancelEvent.pending p.history 1 0 = false ∧ s.inFlight.map (·.op) = [0] ∧
      Ucx.step ⟨20, true⟩ (s.setFound p.found) ⟨0, .advance⟩ = some t ∧
      ¬ s.CancelRecvLaw t 0 0 [] false ∧
      Ucx.step ⟨20, true⟩ t ⟨0, .advance⟩ = some after ∧ after.cancelResults = [(0, true)] ∧
      (after.heap 0).canceled = true ∧ after.inUse = [] := by
  have ran : (run (Process.step fun _ => ⟨20, true⟩) (fun _ _ => True) (initial 2 1)
      [⟨0, 0, .getCommunicator⟩, ⟨0, 0, .sharedRecv 0 1 7⟩, ⟨0, 0, .advance⟩,
        ⟨0, 0, .ucx (.inProgress 3)⟩, ⟨0, 0, .cancel 0⟩, ⟨0, 0, .advance⟩,
        ⟨0, 0, .ucx (.callback ⟨3, 0, none⟩ .canceled)⟩, ⟨0, 0, .ucx (.progressed false)⟩,
        ⟨0, 0, .advance⟩, ⟨0, 0, .advance⟩, ⟨1, 0, .getCommunicator⟩, ⟨1, 0, .sharedRecv 0 1 7⟩,
        ⟨1, 0, .advance⟩, ⟨1, 0, .ucx (.inProgress 3)⟩, ⟨1, 0, .cancel 0⟩, ⟨1, 0, .advance⟩,
        ⟨1, 0, .ucx (.progressed false)⟩]).bind (fun p => p.contexts[1]?.bind fun s =>
          (Ucx.step ⟨20, true⟩ (s.setFound p.found) ⟨0, .advance⟩).bind fun t =>
            (Ucx.step ⟨20, true⟩ t ⟨0, .advance⟩).map fun after =>
          decide (s.threads[0]? = some [.call none (.cancelScan 0)] ∧
            CancelEvent.pending p.history 1 0 = false ∧ s.inFlight.map (·.op) = [0] ∧
            s.cancelResults = [] ∧ t.cancelResults = [] ∧ after.cancelResults = [(0, true)] ∧
            (after.heap 0).canceled = true ∧ after.inUse = [])) = some true := by decide +kernel
  obtain ⟨p, reached, ran⟩ := Option.bind_eq_some_iff.mp ran
  obtain ⟨s, here, ran⟩ := Option.bind_eq_some_iff.mp ran
  obtain ⟨t, searched, ran⟩ := Option.bind_eq_some_iff.mp ran
  obtain ⟨after, freed, ran⟩ := Option.map_eq_some_iff.mp ran
  obtain ⟨found, uncanceled, flying, none, still, results, canceled, inUse⟩ := of_decide_eq_true ran
  refine ⟨p, s, t, after, reaches_of_run reached, here, found, uncanceled, flying, searched,
    fun law => ?_, freed, results, canceled, inUse⟩
  have returned := law.returns.mpr rfl
  rw [none, still] at returned
  cases returned

end Oomph.Ucx
