import Oomph.Mpi.Communicator

namespace Oomph.Mpi.Shared

open Oomph.Mpi (Heap RequestState CancelResult)

/-! `shared_request_queue` with any number of threads.  A push, a pop, an `MPI_Test`, a
`mpi_request::cancel` and each load or store of an atomic variable is one step, and the steps of
the threads interleave in any order.  A thread has a call stack, innermost frame first, and user
code runs on the empty stack and inside callbacks.
-/

inductive Frame
  | enqueue (e : Nat)
  | progress
  /-- The loop of `progress` is about to pop, with what is in `m_local_queue`. -/
  | pop (localQueue : List Nat)
  | test (e : Nat) (localQueue : List Nat)
  /-- The local requests go back to the queue, and then the one that was found is called. -/
  | pushBack (localQueue : List Nat) (found : Option Nat)
  | callback (e : Nat)
  | countDown (e : Nat)
  | setReady (e : Nat)
  /-- `consume_all` of `cancel` is about to pop. -/
  | consume (e : Nat) (localQueue : List Nat) (canceled : Bool)
  | cancel (e : Nat) (localQueue : List Nat) (canceled : Bool)
  /-- `release_self_ref` and the three assignments of `set_canceled`. -/
  | withdraw (e : Nat) (localQueue : List Nat)
  | markReady (e : Nat) (localQueue : List Nat)
  | markCanceled (e : Nat) (localQueue : List Nat)
  | restore (e : Nat) (localQueue : List Nat) (canceled : Bool)
deriving DecidableEq, Repr

structure State where
  heap : Heap
  posts : List Post
  queue : List Nat
  scheduled : Counter → Int
  complete : Nat → Bool
  /-- The variables that each thread has once. -/
  inProgress : Nat → Bool
  /-- What an exception has left in the `m_local_queue` of a thread's `cancel`. -/
  stranded : Nat → List Nat
  threads : List (List Frame)
  /-- No step reads the last two, newest first. -/
  history : List Event
  results : List (Nat × CancelResult)

namespace State

def initial (threads : Nat) : State where
  heap _ := { RequestStateBase.create 0 .sharedRecv 0 0 0 with
    req := none, selfPtr := false, index := 0 }
  posts := []
  queue := []
  scheduled _ := 0
  complete _ := false
  inProgress _ := false
  stranded _ := []
  threads := List.replicate threads []
  history := []
  results := []

@[simps -fullyApplied]
def setStack (thread : Nat) (stack : List Frame) (s : State) : State :=
  { s with threads := s.threads.set thread stack }

@[simps -fullyApplied]
def push (e : Nat) (s : State) : State :=
  { s with queue := s.queue ++ [e] }

@[simps -fullyApplied]
def setQueue (queue : List Nat) (s : State) : State :=
  { s with queue }

@[simps -fullyApplied]
def setInProgress (thread : Nat) (busy : Bool) (s : State) : State :=
  { s with inProgress := Function.update s.inProgress thread busy }

@[simps -fullyApplied]
def setStranded (thread : Nat) (localQueue : List Nat) (s : State) : State :=
  { s with stranded := Function.update s.stranded thread localQueue }

@[simps -fullyApplied]
def returnCancel (e : Nat) (result : CancelResult) (s : State) : State :=
  { s with results := (e, result) :: s.results }

@[simps -fullyApplied]
def create (rank : RankType) (tag : TagType) (s : State) : State :=
  { s with
    posts := s.posts ++ [{ comm := 0, kind := .sharedRecv, rank, tag, inplace := false }]
    heap := Function.update s.heap s.posts.length
      { RequestStateBase.create 0 .sharedRecv rank tag s.posts.length with
        req := some s.posts.length, selfPtr := true, index := 0 }
    scheduled := countUp s.scheduled .sharedRecvs }

/-- MPI is done with the request and sets its handle to null. -/
@[simps -fullyApplied]
def nullify (e : Nat) (s : State) : State :=
  { s with heap := Function.update s.heap e { s.heap e with req := none } }

@[simps -fullyApplied]
def setComplete (e : Nat) (s : State) : State :=
  { s with complete := Function.update s.complete e true }

@[simps -fullyApplied]
def releaseSelfRef (e : Nat) (s : State) : State :=
  { s with heap := Function.update s.heap e { s.heap e with selfPtr := false } }

@[simps -fullyApplied]
def callCb (e : Nat) (s : State) : State :=
  { s with history := .called (s.heap e).cb (s.heap e).rank (s.heap e).tag :: s.history }

@[simps -fullyApplied]
def countDownCb (e : Nat) (event : Event) (s : State) : State :=
  { s with
    scheduled := Oomph.countDown s.scheduled (s.heap e).scheduled
    history := event :: s.history }

@[simps -fullyApplied]
def setReady (e : Nat) (s : State) : State :=
  { s with heap := Function.update s.heap e { s.heap e with ready := true } }

@[simps -fullyApplied]
def setCanceled (e : Nat) (s : State) : State :=
  { s with heap := Function.update s.heap e { s.heap e with canceled := true } }

/-- `MPI_Test`; a null handle is complete. -/
def isReady (s : State) (e : Nat) : Bool :=
  match (s.heap e).req with
  | none => true
  | some op => s.complete op

def advance (thread : Nat) (s : State) : List Frame → Option State
  | .enqueue e :: rest => some ((s.push e).setStack thread rest)
  | .progress :: rest =>
    if s.inProgress thread then some (s.setStack thread rest)
    else some ((s.setInProgress thread true).setStack thread (.pop [] :: rest))
  | .pop localQueue :: rest =>
    match s.queue with
    | [] => some (s.setStack thread (.pushBack localQueue none :: rest))
    | e :: queue => some ((s.setQueue queue).setStack thread (.test e localQueue :: rest))
  | .test e localQueue :: rest =>
    if s.isReady e then
      some ((s.nullify e).setStack thread (.pushBack localQueue (some e) :: rest))
    else some (s.setStack thread (.pop (localQueue ++ [e]) :: rest))
  | .pushBack (x :: localQueue) found :: rest =>
    some ((s.push x).setStack thread (.pushBack localQueue found :: rest))
  | .pushBack [] none :: rest => some ((s.setInProgress thread false).setStack thread rest)
  | .pushBack [] (some e) :: rest =>
    some (((s.releaseSelfRef e).callCb e).setStack thread (.callback e :: rest))
  | .countDown e :: rest =>
    some ((s.countDownCb e (.returned (s.heap e).cb)).setStack thread (.setReady e :: rest))
  | .setReady e :: rest =>
    some (((s.setReady e).setInProgress thread false).setStack thread rest)
  | .consume e localQueue canceled :: rest =>
    match s.queue with
    | [] => some (s.setStack thread (.restore e localQueue canceled :: rest))
    | x :: queue =>
      some ((s.setQueue queue).setStack thread
        ((if x = e then .cancel e localQueue canceled
          else .consume e (localQueue ++ [x]) canceled) :: rest))
  | .withdraw e localQueue :: rest =>
    some (((s.releaseSelfRef e).countDownCb e (.canceled (s.heap e).cb)).setStack thread
      (.markReady e localQueue :: rest))
  | .markReady e localQueue :: rest =>
    some ((s.setReady e).setStack thread (.markCanceled e localQueue :: rest))
  | .markCanceled e localQueue :: rest =>
    some ((s.setCanceled e).setStack thread (.consume e localQueue true :: rest))
  | .restore e (x :: localQueue) canceled :: rest =>
    some ((s.push x).setStack thread (.restore e localQueue canceled :: rest))
  | .restore e [] canceled :: rest =>
    some ((s.returnCancel e (.returned canceled)).setStack thread rest)
  | _ => none

/-- `mpi_request::cancel`, with what `MPI_Test_cancelled` says.  A null handle is an error for
`MPI_Cancel`.  Where the error handler of MPI returns and nobody looks at the error, as in a build
with `NDEBUG`, `MPI_Wait` gives an empty status, which is not that of a cancelled operation. -/
def cancelRequest (thread : Nat) (flag : Bool) (s : State) : List Frame → Option State
  | .cancel e localQueue canceled :: rest =>
    match (s.heap e).req with
    | none =>
      if flag then none
      else some (s.setStack thread (.consume e (localQueue ++ [e]) canceled :: rest))
    | some op =>
      if flag then
        if s.complete op then none
        else some ((s.nullify e).setStack thread (.withdraw e localQueue :: rest))
      else some (((s.nullify e).setComplete op).setStack thread
        (.consume e (localQueue ++ [e]) canceled :: rest))
  | _ => none

/-- `mpi_request::cancel` of a null handle in a build without `NDEBUG`, with an error handler that
returns: `OOMPH_CHECK_MPI_RESULT` throws, and the exception leaves `cancel` with the requests it has
popped.  With the default handler of MPI the process ends here. -/
def refuseCancel (thread : Nat) (s : State) : List Frame → Option State
  | .cancel e localQueue _ :: rest =>
    match (s.heap e).req with
    | none =>
      some (((s.setStranded thread localQueue).returnCancel e .threw).setStack thread rest)
    | some _ => none
  | _ => none

end State

def inUserCode : List Frame → Bool
  | [] => true
  | .callback _ :: _ => true
  | _ => false

inductive Act
  | post (rank : RankType) (tag : TagType)
  | progress
  | cancel (e : Nat)
  | callbackReturns
  | advance
  | answer (flag : Bool)
  | refuse
  /-- MPI completes an operation; no thread moves. -/
  | complete (e : Nat)
deriving DecidableEq, Repr

structure Action where
  thread : Nat
  act : Act
deriving DecidableEq, Repr

namespace State

def startCancel (thread e : Nat) (stack : List Frame) (s : State) : State :=
  if (s.heap e).ready then s.returnCancel e (.returned false)
  else (s.setStranded thread []).setStack thread (.consume e [] false :: stack)

def userCall (thread : Nat) (act : Act) (stack : List Frame) (s : State) : Option State :=
  match act with
  | .post rank tag =>
    some ((s.create rank tag).setStack thread (.enqueue s.posts.length :: stack))
  | .progress => some (s.setStack thread (.progress :: stack))
  | .cancel e => if e < s.posts.length then some (s.startCancel thread e stack) else none
  | .callbackReturns =>
    match stack with
    | .callback e :: rest => some (s.setStack thread (.countDown e :: rest))
    | _ => none
  | _ => none

end State

theorem State.userCall_progress (thread : Nat) (stack : List Frame) (s : State) :
    s.userCall thread .progress stack = some (s.setStack thread (.progress :: stack)) := rfl

theorem State.userCall_callbackReturns (thread e : Nat) (rest : List Frame) (s : State) :
    s.userCall thread .callbackReturns (.callback e :: rest) =
      some (s.setStack thread (.countDown e :: rest)) := rfl

def step (s : State) (action : Action) : Option State :=
  match s.threads[action.thread]? with
  | none => none
  | some stack =>
    match action.act with
    | .complete e => if e < s.posts.length then some (s.setComplete e) else none
    | .advance => s.advance action.thread stack
    | .answer flag => s.cancelRequest action.thread flag stack
    | .refuse => s.refuseCancel action.thread stack
    | act => if inUserCode stack then s.userCall action.thread act stack else none

variable {s t : State} {thread : Nat} {stack rest : List Frame} {act : Act}

inductive Effect (s : State) (thread : Nat) : Act → State → Prop
  | post (rank : RankType) (tag : TagType) (stack : List Frame) :
      s.threads[thread]? = some stack → inUserCode stack = true →
      Effect s thread (.post rank tag)
        ((s.create rank tag).setStack thread (.enqueue s.posts.length :: stack))
  | progress (stack : List Frame) : s.threads[thread]? = some stack → inUserCode stack = true →
      Effect s thread .progress (s.setStack thread (.progress :: stack))
  | late (e : Nat) (stack : List Frame) : s.threads[thread]? = some stack →
      inUserCode stack = true → (s.heap e).ready = true →
      Effect s thread (.cancel e) (s.returnCancel e (.returned false))
  | startCancel (e : Nat) (stack : List Frame) : s.threads[thread]? = some stack →
      inUserCode stack = true → e < s.posts.length → (s.heap e).ready = false →
      Effect s thread (.cancel e)
        ((s.setStranded thread []).setStack thread (.consume e [] false :: stack))
  | callbackReturns (e : Nat) (rest : List Frame) :
      s.threads[thread]? = some (.callback e :: rest) →
      Effect s thread .callbackReturns (s.setStack thread (.countDown e :: rest))
  | complete (e : Nat) : e < s.posts.length → Effect s thread (.complete e) (s.setComplete e)
  | enqueue (e : Nat) (rest : List Frame) : s.threads[thread]? = some (.enqueue e :: rest) →
      Effect s thread .advance ((s.push e).setStack thread rest)
  | nested (rest : List Frame) : s.threads[thread]? = some (.progress :: rest) →
      s.inProgress thread = true → Effect s thread .advance (s.setStack thread rest)
  | enter (rest : List Frame) : s.threads[thread]? = some (.progress :: rest) →
      s.inProgress thread = false → Effect s thread .advance
        ((s.setInProgress thread true).setStack thread (.pop [] :: rest))
  | drained (localQueue : List Nat) (rest : List Frame) :
      s.threads[thread]? = some (.pop localQueue :: rest) → s.queue = [] →
      Effect s thread .advance (s.setStack thread (.pushBack localQueue none :: rest))
  | pop (e : Nat) (queue localQueue : List Nat) (rest : List Frame) :
      s.threads[thread]? = some (.pop localQueue :: rest) → s.queue = e :: queue →
      Effect s thread .advance ((s.setQueue queue).setStack thread (.test e localQueue :: rest))
  | found (e : Nat) (localQueue : List Nat) (rest : List Frame) :
      s.threads[thread]? = some (.test e localQueue :: rest) → s.isReady e = true →
      Effect s thread .advance
        ((s.nullify e).setStack thread (.pushBack localQueue (some e) :: rest))
  | pending (e : Nat) (localQueue : List Nat) (rest : List Frame) :
      s.threads[thread]? = some (.test e localQueue :: rest) → s.isReady e = false →
      Effect s thread .advance (s.setStack thread (.pop (localQueue ++ [e]) :: rest))
  | pushBack (x : Nat) (localQueue : List Nat) (found : Option Nat) (rest : List Frame) :
      s.threads[thread]? = some (.pushBack (x :: localQueue) found :: rest) →
      Effect s thread .advance ((s.push x).setStack thread (.pushBack localQueue found :: rest))
  | nothing (rest : List Frame) : s.threads[thread]? = some (.pushBack [] none :: rest) →
      Effect s thread .advance ((s.setInProgress thread false).setStack thread rest)
  | call (e : Nat) (rest : List Frame) :
      s.threads[thread]? = some (.pushBack [] (some e) :: rest) →
      Effect s thread .advance
        (((s.releaseSelfRef e).callCb e).setStack thread (.callback e :: rest))
  | countDown (e : Nat) (rest : List Frame) : s.threads[thread]? = some (.countDown e :: rest) →
      Effect s thread .advance ((s.countDownCb e (.returned (s.heap e).cb)).setStack thread
        (.setReady e :: rest))
  | setReady (e : Nat) (rest : List Frame) : s.threads[thread]? = some (.setReady e :: rest) →
      Effect s thread .advance
        (((s.setReady e).setInProgress thread false).setStack thread rest)
  | consumed (e : Nat) (localQueue : List Nat) (canceled : Bool) (rest : List Frame) :
      s.threads[thread]? = some (.consume e localQueue canceled :: rest) → s.queue = [] →
      Effect s thread .advance (s.setStack thread (.restore e localQueue canceled :: rest))
  | reach (e : Nat) (queue localQueue : List Nat) (canceled : Bool) (rest : List Frame) :
      s.threads[thread]? = some (.consume e localQueue canceled :: rest) → s.queue = e :: queue →
      Effect s thread .advance
        ((s.setQueue queue).setStack thread (.cancel e localQueue canceled :: rest))
  | consume (e x : Nat) (queue localQueue : List Nat) (canceled : Bool) (rest : List Frame) :
      s.threads[thread]? = some (.consume e localQueue canceled :: rest) → s.queue = x :: queue →
      x ≠ e → Effect s thread .advance
        ((s.setQueue queue).setStack thread (.consume e (localQueue ++ [x]) canceled :: rest))
  | withdraw (e : Nat) (localQueue : List Nat) (rest : List Frame) :
      s.threads[thread]? = some (.withdraw e localQueue :: rest) →
      Effect s thread .advance (((s.releaseSelfRef e).countDownCb e
        (.canceled (s.heap e).cb)).setStack thread (.markReady e localQueue :: rest))
  | markReady (e : Nat) (localQueue : List Nat) (rest : List Frame) :
      s.threads[thread]? = some (.markReady e localQueue :: rest) →
      Effect s thread .advance
        ((s.setReady e).setStack thread (.markCanceled e localQueue :: rest))
  | markCanceled (e : Nat) (localQueue : List Nat) (rest : List Frame) :
      s.threads[thread]? = some (.markCanceled e localQueue :: rest) →
      Effect s thread .advance
        ((s.setCanceled e).setStack thread (.consume e localQueue true :: rest))
  | restore (e x : Nat) (localQueue : List Nat) (canceled : Bool) (rest : List Frame) :
      s.threads[thread]? = some (.restore e (x :: localQueue) canceled :: rest) →
      Effect s thread .advance
        ((s.push x).setStack thread (.restore e localQueue canceled :: rest))
  | returns (e : Nat) (canceled : Bool) (rest : List Frame) :
      s.threads[thread]? = some (.restore e [] canceled :: rest) →
      Effect s thread .advance ((s.returnCancel e (.returned canceled)).setStack thread rest)
  | threw (e : Nat) (localQueue : List Nat) (canceled : Bool) (rest : List Frame) :
      s.threads[thread]? = some (.cancel e localQueue canceled :: rest) → (s.heap e).req = none →
      Effect s thread .refuse
        (((s.setStranded thread localQueue).returnCancel e .threw).setStack thread rest)
  | ignored (e : Nat) (localQueue : List Nat) (canceled : Bool) (rest : List Frame) :
      s.threads[thread]? = some (.cancel e localQueue canceled :: rest) → (s.heap e).req = none →
      Effect s thread (.answer false)
        (s.setStack thread (.consume e (localQueue ++ [e]) canceled :: rest))
  | canceled (e op : Nat) (localQueue : List Nat) (canceled : Bool) (rest : List Frame) :
      s.threads[thread]? = some (.cancel e localQueue canceled :: rest) →
      (s.heap e).req = some op → s.complete op = false →
      Effect s thread (.answer true)
        ((s.nullify e).setStack thread (.withdraw e localQueue :: rest))
  | tooLate (e op : Nat) (localQueue : List Nat) (canceled : Bool) (rest : List Frame) :
      s.threads[thread]? = some (.cancel e localQueue canceled :: rest) →
      (s.heap e).req = some op → Effect s thread (.answer false)
        (((s.nullify e).setComplete op).setStack thread
          (.consume e (localQueue ++ [e]) canceled :: rest))

private theorem advance_effect (here : s.threads[thread]? = some stack)
    (taken : s.advance thread stack = some t) : Effect s thread .advance t := by
  unfold State.advance at taken
  split at taken
  · cases taken
    exact .enqueue _ _ here
  · split at taken
    · cases taken
      exact .nested _ here ‹_›
    · cases taken
      exact .enter _ here (Bool.eq_false_iff.mpr ‹_›)
  · split at taken
    · cases taken
      exact .drained _ _ here ‹_›
    · cases taken
      exact .pop _ _ _ _ here ‹_›
  · split at taken
    · cases taken
      exact .found _ _ _ here ‹_›
    · cases taken
      exact .pending _ _ _ here (Bool.eq_false_iff.mpr ‹_›)
  · cases taken
    exact .pushBack _ _ _ _ here
  · cases taken
    exact .nothing _ here
  · cases taken
    exact .call _ _ here
  · cases taken
    exact .countDown _ _ here
  · cases taken
    exact .setReady _ _ here
  · split at taken
    · cases taken
      exact .consumed _ _ _ _ here ‹_›
    · rename_i e localQueue canceled rest x queue whole
      cases taken
      split
      · rename_i same
        subst same
        exact .reach _ _ _ _ _ here whole
      · exact .consume _ _ _ _ _ _ here whole ‹_›
  · cases taken
    exact .withdraw _ _ _ here
  · cases taken
    exact .markReady _ _ _ here
  · cases taken
    exact .markCanceled _ _ _ here
  · cases taken
    exact .restore _ _ _ _ _ here
  · cases taken
    exact .returns _ _ _ here
  · cases taken

private theorem answer_effect {flag : Bool} (here : s.threads[thread]? = some stack)
    (taken : s.cancelRequest thread flag stack = some t) : Effect s thread (.answer flag) t := by
  unfold State.cancelRequest at taken
  split at taken
  · split at taken
    · cases flag with
      | true => cases taken
      | false =>
        cases taken
        exact .ignored _ _ _ _ here ‹_›
    · cases flag with
      | true =>
        simp only [if_true, Option.ite_none_left_eq_some, Bool.not_eq_true,
          Option.some.injEq] at taken
        obtain ⟨running, rfl⟩ := taken
        exact .canceled _ _ _ _ _ here ‹_› running
      | false =>
        cases taken
        exact .tooLate _ _ _ _ _ here ‹_›
  · cases taken

private theorem refuse_effect (here : s.threads[thread]? = some stack)
    (taken : s.refuseCancel thread stack = some t) : Effect s thread .refuse t := by
  unfold State.refuseCancel at taken
  split at taken
  · split at taken
    · cases taken
      exact .threw _ _ _ _ here ‹_›
    · cases taken
  · cases taken

private theorem userCall_effect (here : s.threads[thread]? = some stack)
    (user : inUserCode stack = true) (taken : s.userCall thread act stack = some t) :
    Effect s thread act t := by
  cases act with
  | post rank tag =>
    cases taken
    exact .post _ _ _ here user
  | progress =>
    cases taken
    exact .progress _ here user
  | cancel e =>
    dsimp only [State.userCall] at taken
    simp only [Option.ite_none_right_eq_some, Option.some.injEq] at taken
    obtain ⟨known, rfl⟩ := taken
    unfold State.startCancel
    split
    · exact .late _ _ here user ‹_›
    · exact .startCancel _ _ here user known (Bool.eq_false_iff.mpr ‹_›)
  | callbackReturns =>
    dsimp only [State.userCall] at taken
    split at taken
    · cases taken
      exact .callbackReturns _ _ here
    · cases taken
  | _ => cases taken

theorem step_effect (taken : step s ⟨thread, act⟩ = some t) : Effect s thread act t := by
  unfold step at taken
  cases here : s.threads[thread]? with
  | none => simp [here] at taken
  | some stack =>
    simp only [here] at taken
    split at taken
    · simp only [Option.ite_none_right_eq_some, Option.some.injEq] at taken
      obtain ⟨known, rfl⟩ := taken
      exact .complete _ known
    · exact advance_effect here taken
    · exact answer_effect here taken
    · exact refuse_effect here taken
    · simp only [Option.ite_none_right_eq_some] at taken
      exact userCall_effect here taken.1 taken.2

end Oomph.Mpi.Shared
