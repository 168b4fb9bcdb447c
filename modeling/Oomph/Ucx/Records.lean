import Oomph.Ucx.Stacks

namespace Oomph.Ucx

open Machine State

variable {config : Config} {s t : State} {thread : Nat} {stack moved rest : List Frame}
  {act : Act} {frame : Frame} {posts : List Post} {op comm : Nat} {user : Option Nat}

inductive RecordStep (s t : State) : Prop
  | same : t.posts = s.posts → (∀ op, (t.heap op).identity = (s.heap op).identity) →
      (∀ op, (t.heap op).ucxPtr = (s.heap op).ucxPtr) → RecordStep s t
  | create (comm : Nat) (kind : Kind) (rank : RankType) (tag : TagType) (ptr : Option Nat) :
      (∃ stack ∈ s.threads, ∃ code, Frame.call (some comm) code ∈ stack) →
      t.posts = (s.create comm kind rank tag ptr).posts →
      t.heap = (s.create comm kind rank tag ptr).heap → RecordStep s t
  | inplace (post : Post) :
      (∃ stack ∈ s.threads, ∃ code, Frame.call (some post.comm) code ∈ stack) →
      post.inplace = true → t.posts = s.posts ++ [post] → t.heap = s.heap → RecordStep s t

private theorem heap_update {Attr : Type} (attr : RequestState → Attr) {heap : Heap}
    {request : RequestState} (same : attr request = attr (heap op)) (other : Nat) :
    attr (Function.update heap op request other) = attr (heap other) :=
  attr_update attr same other

private theorem called_of_found {code : Code}
    (found : s.threads[thread]? = some (.call (some comm) code :: rest)) :
    ∃ stack ∈ s.threads, ∃ code, Frame.call (some comm) code ∈ stack :=
  ⟨_, List.mem_of_getElem? found, code, List.mem_cons_self⟩

theorem effect_records (effect : Effect config s thread act t) : RecordStep s t := by
  cases effect with
  | runSend comm dst tag c rest found =>
    exact .inplace { comm, kind := .send, rank := dst, tag, inplace := true }
      (called_of_found found) rfl rfl rfl
  | queueSend comm dst tag c rest found =>
    exact .create comm .send dst tag none (called_of_found found) rfl rfl
  | submitSend comm dst tag ptr rest found =>
    exact .create comm .send dst tag (some ptr) (called_of_found found) rfl rfl
  | submitRecv comm kind src tag ptr rest found =>
    exact .create comm kind src tag (some ptr) (called_of_found found) rfl rfl
  | runEarly comm kind src tag rest found =>
    exact .inplace { comm, kind, rank := src, tag, inplace := true } (called_of_found found)
      rfl rfl rfl
  | deferEarly comm kind src tag ptr rest found =>
    exact .create comm kind src tag (some ptr) (called_of_found found) rfl rfl
  | start op via rest found =>
    exact .same rfl (heap_update (·.identity) (by rfl)) (heap_update (·.ucxPtr) (by rfl))
  | returnCallback op via rest found =>
    unfold State.returnCallback
    split
    · exact .same rfl (fun _ => rfl) fun _ => rfl
    · exact .same rfl (heap_update (·.identity) (by rfl)) (heap_update (·.ucxPtr) (by rfl))
  | _ => exact .same rfl (fun _ => rfl) fun _ => rfl

theorem cancelEffect_records (effect : CancelEffect config s thread act t) (sound : t.fault = none) :
    RecordStep s t := by
  cases effect with
  | bad user code op rest t found code gone fault => simp [sound] at fault
  | looped user op => cases user <;> exact .same rfl (fun _ => rfl) fun _ => rfl
  | withdraw user op ptr rest =>
    refine .same rfl ?_ ?_
    · intro other
      simp only [setStack_heap, destroyData_heap, logPtr_heap, setCanceled_heap,
        releaseSelfRef_heap, takeCanceled_heap]
      rw [heap_update (·.identity) (by rfl), heap_update (·.identity) (by rfl)]
    · intro other
      simp only [setStack_heap, destroyData_heap, logPtr_heap, setCanceled_heap,
        releaseSelfRef_heap, takeCanceled_heap]
      rw [heap_update (·.ucxPtr) (by rfl), heap_update (·.ucxPtr) (by rfl)]
  | _ => exact .same rfl (fun _ => rfl) fun _ => rfl

namespace RecordStep

theorem grown (step : RecordStep s t) : s.posts <+: t.posts := by
  cases step with
  | same posts => rw [posts]
  | create comm kind rank tag ptr _ posts => exact ⟨_, posts.symm⟩
  | inplace post _ _ posts => exact ⟨[post], posts.symm⟩

theorem ucxPtr (step : RecordStep s t) (known : op < s.posts.length) :
    (t.heap op).ucxPtr = (s.heap op).ucxPtr := by
  cases step with
  | same _ _ ptrs => exact ptrs op
  | create comm kind rank tag ptr _ _ heap =>
    rw [heap, create_heap, Function.update_of_ne (Nat.ne_of_lt known)]
  | inplace post _ _ _ heap => rw [heap]

end RecordStep

/-- What a step other than one of a cancel does to the requests that UCX has in progress. -/
inductive FlightStep (s t : State) : Prop
  | same : t.inFlight = s.inFlight → t.canceling = s.canceling → FlightStep s t
  | post (request : UcxRequest) : request.op = s.posts.length → request.ptr ∉ s.inUse →
      t.inFlight = s.inFlight ++ [request] → t.canceling = s.canceling → FlightStep s t
  | take (request : UcxRequest) : request ∈ s.inFlight →
      t.inFlight = s.inFlight.erase request →
      t.canceling = s.canceling.filter (· ≠ request.ptr) → FlightStep s t

theorem effect_flight (effect : Effect config s thread act t) : FlightStep s t := by
  cases effect with
  | submitSend comm dst tag ptr rest found fresh =>
    exact .post { ptr, op := s.posts.length, worker := some comm } rfl fresh rfl rfl
  | submitRecv comm kind src tag ptr rest found fresh =>
    exact .post { ptr, op := s.posts.length, worker := none } rfl fresh rfl rfl
  | sendOk comm request op rest found member => exact .take request member rfl rfl
  | sendFailed comm request rest found member => exact .take request member rfl rfl
  | recvOwn user code request op shared rest found receives member =>
    exact .take request member rfl rfl
  | recvDirect user code request op shared rest found receives member =>
    exact .take request member rfl rfl
  | recvShared user code request op rest found receives member => exact .take request member rfl rfl
  | recvEmpty user code request rest found receives member => exact .take request member rfl rfl
  | recvFailed user code request rest found receives member => exact .take request member rfl rfl
  | returnCallback op via =>
    unfold State.returnCallback
    split <;> exact .same rfl rfl
  | _ => exact .same rfl rfl

end Oomph.Ucx
