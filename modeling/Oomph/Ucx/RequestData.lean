import Oomph.Ucx.Careful

namespace Oomph.Ucx

open Machine State

/-! UCX initialises the memory of a request once and reuses it after the request was freed, so every
path that frees a request must leave it without data.  Requests that close endpoints come from the
same memory; no data is ever constructed for them.
-/

/-- The communicators, and the memory of the requests that close endpoints until they are freed. -/
structure Requests where
  ucx : State
  closing : List Nat

namespace Requests

def initial (threads : Nat) : Requests := ⟨.initial threads, []⟩

/-- UCX has this memory in its pool. -/
def Free (p : Requests) (ptr : Nat) : Prop :=
  ptr ∉ p.ucx.inUse ∧ ptr ∉ p.closing

instance (p : Requests) (ptr : Nat) : Decidable (p.Free ptr) :=
  inferInstanceAs (Decidable (_ ∧ _))

end Requests

def Answer.returned : Answer → Option Nat
  | .inProgress ptr => some ptr
  | .early ptr => some ptr
  | .truncated ptr => some ptr
  | _ => none

def Act.returned : Act → Option Nat
  | .ucx answer => answer.returned
  | _ => none

inductive Move
  | act (action : Action)
  /-- `ucp_ep_close_nb` returns a request. -/
  | close (ptr : Nat)
  /-- The request for an endpoint is freed, whether the endpoint is closed or not. -/
  | closed (ptr : Nat)
deriving DecidableEq, Repr

namespace Requests

def step (config : Config) (p : Requests) (move : Move) : Option Requests :=
  match move with
  | .act action =>
    if ∀ ptr ∈ action.act.returned, p.Free ptr then
      (Ucx.step config p.ucx action).map fun ucx => { p with ucx }
    else none
  | .close ptr => if p.Free ptr then some { p with closing := ptr :: p.closing } else none
  | .closed ptr =>
    if ptr ∈ p.closing then some { p with closing := p.closing.erase ptr } else none

/-- Only receives are cancelled that UCX has not completed. -/
def Incomplete (p : Requests) : Move → Prop
  | .act action =>
    match p.ucx.threads[action.thread]? with
    | some (.call _ (.cancelLock op) :: _) => ∃ request ∈ p.ucx.inFlight, request.op = op
    | _ => True
  | _ => True

instance (p : Requests) (move : Move) : Decidable (p.Incomplete move) := by
  unfold Incomplete
  split
  · split <;> infer_instance
  · infer_instance

/-- A cancel of a shared receive finds its variable unset unless it is right. -/
def Reset (p : Requests) : Move → Prop
  | .act action =>
    match p.ucx.threads[action.thread]? with
    | some (.call none (.cancelScan op) :: _) =>
      p.ucx.found action.thread = false ∨ op ∈ p.ucx.cancelQueue none
    | _ => True
  | _ => True

instance (p : Requests) (move : Move) : Decidable (p.Reset move) := by
  unfold Reset
  split
  · split <;> infer_instance
  · infer_instance

/-- Free memory has no data, and a request in progress has the data of its own operation. -/
structure DataLaw (p : Requests) : Prop where
  clean : ∀ ptr, p.Free ptr → p.ucx.requestData ptr = .empty
  own : ∀ request ∈ p.ucx.inFlight, PostedAs p.ucx.posts request.op fun post =>
    p.ucx.requestData request.ptr = .construct post.kind request.op
  faultless : p.ucx.fault = none

/-- `recv_callback` takes its early exit inside `ucp_tag_recv_nb` only, and the callbacks dispatch to
the request state of the operation. -/
def CallbackLaw (p : Requests) : Move → Prop
  | .act ⟨_, .ucx (.early ptr)⟩ => p.ucx.requestData ptr = .empty
  | .act ⟨_, .ucx (.callback request _)⟩ => p.ucx.requestData request.ptr ≠ .empty ∧
      (p.ucx.requestData request.ptr).get = some request.op
  | _ => True

variable {config : Config} {p q : Requests} {move : Move} {threads : Nat}

theorem careful_of_move {action : Action} (incomplete : p.Incomplete (.act action))
    (reset : p.Reset (.act action)) : Careful p.ucx action := by
  unfold Careful State.careful
  unfold Incomplete at incomplete
  unfold Reset at reset
  split
  · rename_i op rest found
    simp only [found] at incomplete
    exact decide_eq_true (.inl incomplete)
  · rename_i op rest found
    simp only [found] at reset
    simpa using reset
  · rfl

theorem sound_step (sound : p.ucx.Sound) (incomplete : p.Incomplete move) (reset : p.Reset move)
    (taken : p.step config move = some q) : q.ucx.Sound := by
  cases move with
  | act action =>
    simp only [step] at taken
    split at taken
    · obtain ⟨ucx, moved, rfl⟩ := Option.map_eq_some_iff.mp taken
      rcases step_cases moved with effect | effect
      · exact sound.effect effect
      · exact sound.cancelEffect (careful_of_move incomplete reset) effect
    · cases taken
  | close ptr =>
    simp only [step] at taken
    split at taken
    · cases taken
      exact sound
    · cases taken
  | closed ptr =>
    simp only [step] at taken
    split at taken
    · cases taken
      exact sound
    · cases taken

theorem sound_of_reaches
    (reached : Reaches (step config) (fun p move => p.Incomplete move ∧ p.Reset move)
      (initial threads) p) : p.ucx.Sound :=
  Reaches.invariant (fun p => p.ucx.Sound) (.initial threads)
    (fun _ _ _ sound allowed taken => sound_step sound allowed.1 allowed.2 taken) reached

theorem dataLaw_of_sound (sound : p.ucx.Sound) : p.DataLaw where
  clean ptr free := sound.attached.clean ptr free.1
  own request member := by
    obtain ⟨post, posted, -, data, -⟩ := sound.attached.data request member
    exact ⟨post, posted, data⟩
  faultless := sound.fault

theorem mem_inFlight_of_answered {s t : State} {thread : Nat} {request : UcxRequest}
    {status : Status} {stack : List Frame}
    (taken : s.answered config thread (.callback request status) stack = some t) :
    request ∈ s.inFlight := by
  have member : ∀ {worker}, s.mayComplete worker request status = true → request ∈ s.inFlight := by
    intro worker may
    exact (of_decide_eq_true may).1
  unfold State.answered at taken
  split at taken
  all_goals simp only [reduceCtorEq] at taken
  all_goals
    split at taken
    · exact member ‹_›
    · cases taken

theorem mem_inFlight_of_callback {s t : State} {thread : Nat} {request : UcxRequest}
    {status : Status}
    (taken : Ucx.step config s ⟨thread, .ucx (.callback request status)⟩ = some t) :
    request ∈ s.inFlight := by
  unfold Ucx.step at taken
  split at taken
  · cases taken
  · split at taken
    · cases taken
    · exact mem_inFlight_of_answered taken

theorem callbackLaw_of_sound (sound : p.ucx.Sound) (taken : p.step config move = some q) :
    p.CallbackLaw move := by
  unfold CallbackLaw
  split
  · simp only [step] at taken
    split at taken
    · rename_i free
      exact sound.attached.clean _ (free _ rfl).1
    · cases taken
  · simp only [step] at taken
    split at taken
    · obtain ⟨ucx, taken, -⟩ := Option.map_eq_some_iff.mp taken
      have member := mem_inFlight_of_callback taken
      exact ⟨sound.attached.not_empty member, sound.attached.get member⟩
    · cases taken
  · trivial

/-- Where only receives that UCX has not completed are cancelled, and no cancel of a shared receive
is misled by its variable, all requests are freed without data, and every callback finds the data of
its own operation. -/
theorem request_data_lawful (config : Config) (threads : Nat) {p : Requests}
    (reached : Reaches (step config) (fun p move => p.Incomplete move ∧ p.Reset move)
      (initial threads) p) :
    p.DataLaw ∧ ∀ move q, p.step config move = some q → p.CallbackLaw move := by
  have sound := sound_of_reaches reached
  exact ⟨dataLaw_of_sound sound, fun move q taken => callbackLaw_of_sound sound taken⟩

/-- A receive is cancelled, and its memory is used for the closing of an endpoint and then for a
shared receive, which is cancelled as well. -/
theorem request_data_lawful_after_reuse :
    ∃ p, Reaches (step ⟨20, true⟩) (fun p move => p.Incomplete move ∧ p.Reset move) (initial 1) p ∧
      p.Free 3 ∧ p.ucx.cancelResults = [(1, true), (0, true)] ∧ p.DataLaw := by
  obtain ⟨p, reached, free, results⟩ := exists_of_run (step ⟨20, true⟩)
      (fun p move => p.Incomplete move ∧ p.Reset move) (initial 1)
    [.act ⟨0, .getCommunicator⟩, .act ⟨0, .recv 0 1 7⟩, .act ⟨0, .advance⟩,
      .act ⟨0, .ucx (.inProgress 3)⟩, .act ⟨0, .cancel 0⟩, .act ⟨0, .advance⟩,
      .act ⟨0, .ucx (.callback ⟨3, 0, none⟩ .canceled)⟩, .act ⟨0, .ucx (.progressed false)⟩,
      .act ⟨0, .advance⟩, .act ⟨0, .advance⟩, .close 3, .closed 3, .act ⟨0, .sharedRecv 0 1 7⟩,
      .act ⟨0, .advance⟩, .act ⟨0, .ucx (.inProgress 3)⟩, .act ⟨0, .cancel 1⟩, .act ⟨0, .advance⟩,
      .act ⟨0, .ucx (.callback ⟨3, 1, none⟩ .canceled)⟩, .act ⟨0, .ucx (.progressed false)⟩,
      .act ⟨0, .advance⟩, .act ⟨0, .advance⟩]
    (fun p => p.Free 3 ∧ p.ucx.cancelResults = [(1, true), (0, true)]) (by decide +kernel)
  exact ⟨p, reached, free, results, (request_data_lawful _ _ reached).1⟩

/-- A thread has cancelled a shared receive.  It cancels a second one, which UCX does not cancel at
once, and destroys its data all the same.  Another thread makes progress, UCX completes the receive,
and `recv_callback` takes the exit for a receive that completes inside `ucp_tag_recv_nb`. -/
theorem stale_found_empties_data :
    ∃ p q, Reaches (step ⟨20, true⟩) Incomplete (initial 2) p ∧
      p.step ⟨20, true⟩ (.act ⟨1, .ucx (.callback ⟨3, 1, none⟩ .ok)⟩) = some q ∧
      p.ucx.requestData 3 = .empty ∧ p.ucx.posts[1]? = some ⟨0, .sharedRecv, 1, 7, false⟩ ∧
      q.ucx.dropped = [1] ∧ ¬ p.DataLaw ∧
      ¬ p.CallbackLaw (.act ⟨1, .ucx (.callback ⟨3, 1, none⟩ .ok)⟩) := by
  have ran : ((run (step ⟨20, true⟩) Incomplete (initial 2)
      [.act ⟨0, .getCommunicator⟩, .act ⟨1, .getCommunicator⟩, .act ⟨0, .sharedRecv 0 1 7⟩,
        .act ⟨0, .advance⟩, .act ⟨0, .ucx (.inProgress 3)⟩, .act ⟨0, .cancel 0⟩,
        .act ⟨0, .advance⟩, .act ⟨0, .ucx (.callback ⟨3, 0, none⟩ .canceled)⟩,
        .act ⟨0, .ucx (.progressed false)⟩, .act ⟨0, .advance⟩, .act ⟨0, .advance⟩,
        .act ⟨0, .sharedRecv 0 1 7⟩, .act ⟨0, .advance⟩, .act ⟨0, .ucx (.inProgress 3)⟩,
        .act ⟨0, .cancel 1⟩, .act ⟨0, .advance⟩, .act ⟨0, .ucx (.progressed false)⟩,
        .act ⟨0, .advance⟩, .act ⟨1, .progress 1⟩, .act ⟨1, .ucx (.progressed false)⟩,
        .act ⟨1, .advance⟩]).bind fun p =>
      (p.step ⟨20, true⟩ (.act ⟨1, .ucx (.callback ⟨3, 1, none⟩ .ok)⟩)).map fun q =>
        decide (p.ucx.requestData 3 = .empty ∧
          p.ucx.posts[1]? = some ⟨0, .sharedRecv, 1, 7, false⟩ ∧
          ⟨3, 1, none⟩ ∈ p.ucx.inFlight ∧ q.ucx.dropped = [1])) = some true := by
    decide +kernel
  obtain ⟨p, reached, ran⟩ := Option.bind_eq_some_iff.mp ran
  obtain ⟨q, taken, facts⟩ := Option.map_eq_some_iff.mp ran
  obtain ⟨empty, posted, flying, dropped⟩ := of_decide_eq_true facts
  refine ⟨p, q, reaches_of_run reached, taken, empty, posted, dropped, fun law => ?_,
    fun law => law.1 empty⟩
  obtain ⟨post, same, data⟩ := law.own _ flying
  rw [posted] at same
  cases same
  rw [empty] at data
  cases data

end Requests

end Oomph.Ucx
