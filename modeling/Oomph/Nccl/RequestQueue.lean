import Oomph.Request
import Mathlib.Data.List.TakeDrop

namespace Oomph.Nccl

/-! A `cuda_event` is a value that is moved between its owners, which are the pool, a request
and the event that the requests of a group share.  A move takes `m_recorded` along.  A
function that throws because `cudaEventQuery` failed leaves its loop where it was.
-/

inductive Query
  | success
  | notReady
  | error
deriving DecidableEq, Repr

structure CudaEvent where
  event : Nat
  recorded : Bool
deriving DecidableEq, Repr

/-- There is no answer when the query fails, which throws. -/
def CudaEvent.isReady (cuda : Nat → Query) (e : CudaEvent) : Option Bool :=
  if e.recorded then
    match cuda e.event with
    | .success => some true
    | .notReady => some false
    | .error => none
  else some false

theorem CudaEvent.recorded_of_isReady {cuda : Nat → Query} {e : CudaEvent}
    (ready : e.isReady cuda = some true) : e.recorded = true := by
  unfold isReady at ready
  split at ready
  · assumption
  · cases ready

/-- The event of a request: one of its own, or the one of a group. -/
inductive NcclRequest
  | cached (e : CudaEvent)
  | group (g : Nat)
deriving DecidableEq, Repr

/-- A request state lives as long as it refers to itself or the user holds a request. -/
structure RequestState extends RequestStateBase where
  req : NcclRequest
  selfPtr : Bool
  held : Bool
deriving DecidableEq, Repr

structure RequestQueue where
  queue : List Nat
  inProgress : Bool
deriving DecidableEq, Repr

def RequestQueue.empty : RequestQueue :=
  { queue := [], inProgress := false }

def RequestQueue.enqueue (e : Nat) (reqs : RequestQueue) : RequestQueue :=
  { reqs with queue := reqs.queue ++ [e] }

structure Scan where
  queue : List Nat
  ready : List Nat
  numNotReady : Nat
deriving DecidableEq, Repr

/-- One turn of the loop.  An exception leaves it with the variables as they are. -/
def Scan.visit (isReady : Nat → Option Bool) (scan : Scan) (i : Nat) : Except Scan Scan :=
  match scan.queue[i]? with
  | none => .ok scan
  | some req =>
    match isReady req with
    | none => .error scan
    | some true => .ok { scan with ready := scan.ready ++ [req] }
    | some false => .ok { scan with
        queue := if scan.numNotReady ≠ i then scan.queue.set scan.numNotReady req else scan.queue
        numNotReady := scan.numNotReady + 1 }

def scan (isReady : Nat → Option Bool) (queue : List Nat) : Except Scan Scan :=
  (List.range queue.length).foldlM (Scan.visit isReady) { queue, ready := [], numNotReady := 0 }

def Scan.left (scan : Scan) : List Nat :=
  scan.queue.take scan.numNotReady

section

variable {isReady : Nat → Option Bool} {queue : List Nat} {i : Nat} {scan after : Scan}

/-- The variables after some turns without an exception: the requests that were not ready
stand at the front, over what was there, and the rest of the queue is as it was. -/
structure Scan.Upto (isReady : Nat → Option Bool) (queue : List Nat) (i : Nat) (scan : Scan) :
    Prop where
  front : scan.left = (queue.take i).filter (isReady · = some false)
  back : scan.queue.drop i = queue.drop i
  size : scan.queue.length = queue.length
  ready : scan.ready = (queue.take i).filter (isReady · = some true)
  count : scan.numNotReady ≤ i
  members : ∀ req ∈ scan.queue, req ∈ queue

theorem Scan.Upto.initial : Scan.Upto isReady queue 0 { queue, ready := [], numNotReady := 0 } where
  front := by simp [left]
  back := rfl
  size := rfl
  ready := by simp
  count := Nat.le_refl 0
  members _ member := member

private theorem Scan.Upto.found (upto : scan.Upto isReady queue i) :
    scan.queue[i]? = queue[i]? := by
  have same := congrArg (·[0]?) upto.back
  simpa using same

theorem Scan.Upto.visit (upto : scan.Upto isReady queue i)
    (visited : scan.visit isReady i = .ok after) : after.Upto isReady queue (i + 1) := by
  have found := upto.found
  have count := upto.count
  unfold Scan.visit at visited
  cases here : queue[i]? with
  | none =>
    rw [here] at found
    simp only [found, Except.ok.injEq] at visited
    subst visited
    have outside : queue.length ≤ i := List.getElem?_eq_none_iff.mp here
    have all : queue.take (i + 1) = queue.take i := by
      rw [List.take_of_length_le outside, List.take_of_length_le (by omega)]
    refine ⟨by rw [upto.front, all], ?_, upto.size, by rw [upto.ready, all], by omega,
      upto.members⟩
    rw [List.drop_of_length_le (by rw [upto.size]; omega), List.drop_of_length_le (by omega)]
  | some req =>
    rw [here] at found
    obtain ⟨inside, equal⟩ := List.getElem?_eq_some_iff.mp here
    have next : queue.take (i + 1) = queue.take i ++ [req] := by
      rw [List.take_add_one, here]
      rfl
    have tail : scan.queue.drop (i + 1) = queue.drop (i + 1) := by
      rw [← List.drop_drop, upto.back, List.drop_drop]
    simp only [found] at visited
    cases polled : isReady req with
    | none => simp [polled] at visited
    | some answer =>
      cases answer with
      | true =>
        simp only [polled, Except.ok.injEq] at visited
        subst visited
        refine ⟨?_, tail, upto.size, ?_, by simpa using Nat.le_succ_of_le count,
          upto.members⟩
        · rw [next, List.filter_append, ← upto.front]
          simp [polled, left]
        · rw [next, List.filter_append, ← upto.ready]
          simp [polled]
      | false =>
        simp only [polled, Except.ok.injEq] at visited
        subst visited
        have room : scan.numNotReady < scan.queue.length := by
          rw [upto.size]
          omega
        -- writing a request over itself changes nothing
        have written : (if scan.numNotReady ≠ i then scan.queue.set scan.numNotReady req
            else scan.queue) = scan.queue.set scan.numNotReady req := by
          split
          · rfl
          · rename_i level
            rw [ne_eq, not_not] at level
            obtain ⟨within, rfl⟩ := List.getElem?_eq_some_iff.mp found
            rw [level]
            exact (List.set_getElem_self within).symm
        rw [written]
        refine ⟨?_, ?_, by rw [List.length_set, upto.size], ?_, by simpa using count,
          fun other member => ?_⟩
        · rw [next, List.filter_append, ← upto.front]
          simp only [left, List.take_add_one, List.getElem?_set_self room]
          simp [polled, List.take_set_of_le]
        · rw [List.drop_set_of_lt (by omega), tail]
        · rw [next, List.filter_append, ← upto.ready]
          simp [polled]
        · rcases List.mem_or_eq_of_mem_set member with old | rfl
          · exact upto.members other old
          · exact List.mem_of_getElem? here

theorem Scan.Upto.visit_error (upto : scan.Upto isReady queue i)
    (visited : scan.visit isReady i = .error after) :
    after = scan ∧ ∃ req, queue[i]? = some req ∧ isReady req = none := by
  unfold Scan.visit at visited
  rw [upto.found] at visited
  cases here : queue[i]? with
  | none => simp [here] at visited
  | some req =>
    simp only [here] at visited
    cases polled : isReady req with
    | none =>
      simp only [polled, Except.error.injEq] at visited
      exact ⟨visited.symm, req, rfl, polled⟩
    | some answer => cases answer <;> simp [polled] at visited

private theorem foldlM_visit (isReady : Nat → Option Bool) (queue : List Nat) (turns : Nat) :
    (∃ scan : Scan, scan.Upto isReady queue turns ∧ (List.range turns).foldlM (Scan.visit isReady)
      { queue, ready := [], numNotReady := 0 } = .ok scan) ∨
    ∃ (scan : Scan) (i req : Nat), scan.Upto isReady queue i ∧ queue[i]? = some req ∧
      isReady req = none ∧ (List.range turns).foldlM (Scan.visit isReady)
        { queue, ready := [], numNotReady := 0 } = .error scan := by
  induction turns with
  | zero => exact .inl ⟨_, .initial, rfl⟩
  | succ turns ih =>
    rw [List.range_succ, List.foldlM_append]
    rcases ih with ⟨scan, upto, folded⟩ | ⟨scan, i, req, upto, found, failed, folded⟩
    · rw [folded]
      cases visited : scan.visit isReady turns with
      | ok after =>
        exact .inl ⟨after, upto.visit visited, by simp [bind, Except.bind, visited, pure,
          Except.pure]⟩
      | error after =>
        obtain ⟨rfl, req, found, failed⟩ := upto.visit_error visited
        exact .inr ⟨after, turns, req, upto, found, failed, by simp [bind, Except.bind, visited]⟩
    · exact .inr ⟨scan, i, req, upto, found, failed, by rw [folded]; rfl⟩

/-- A scan without an exception splits the queue. -/
theorem scan_ok (scanned : Nccl.scan isReady queue = .ok after) :
    after.left = queue.filter (isReady · = some false) ∧
      after.ready = queue.filter (isReady · = some true) := by
  rcases foldlM_visit isReady queue queue.length with ⟨scan, upto, folded⟩ | ⟨_, _, _, _, _, _, folded⟩
  · rw [Nccl.scan, folded] at scanned
    cases scanned
    have front := upto.front
    have ready := upto.ready
    rw [List.take_length] at front ready
    exact ⟨front, ready⟩
  · rw [Nccl.scan, folded] at scanned
    cases scanned

/-- An exception leaves the queue with its first requests moved to the front. -/
theorem scan_error (scanned : Nccl.scan isReady queue = .error after) :
    ∃ i req, queue[i]? = some req ∧ isReady req = none ∧ after.Upto isReady queue i := by
  rcases foldlM_visit isReady queue queue.length with ⟨_, _, folded⟩ |
    ⟨scan, i, req, upto, found, failed, folded⟩
  · rw [Nccl.scan, folded] at scanned
    cases scanned
  · rw [Nccl.scan, folded] at scanned
    cases scanned
    exact ⟨i, req, found, failed, upto⟩

end

/-- What popping requests until one is ready has come to, with the requests that were put
into the local queue meanwhile. -/
inductive Popped
  | none (localQueue : List Nat)
  | found (e : Nat) (queue localQueue : List Nat)
  | threw (queue localQueue : List Nat)
deriving DecidableEq, Repr

def popReady (isReady : Nat → Option Bool) : List Nat → List Nat → Popped
  | [], localQueue => .none localQueue
  | e :: queue, localQueue =>
    match isReady e with
    | .none => .threw queue localQueue
    | some true => .found e queue localQueue
    | some false => popReady isReady queue (localQueue ++ [e])

theorem popReady_found {isReady : Nat → Option Bool} {queue localQueue left skipped : List Nat}
    {e : Nat} (popped : popReady isReady queue localQueue = .found e left skipped) :
    isReady e = some true ∧ ∃ before, queue = before ++ e :: left ∧
      skipped = localQueue ++ before ∧ ∀ req ∈ before, isReady req = some false := by
  induction queue generalizing localQueue with
  | nil => cases popped
  | cons head rest ih =>
    unfold popReady at popped
    split at popped
    · cases popped
    · cases popped
      exact ⟨‹_›, [], rfl, by simp, by simp⟩
    · rename_i waits
      obtain ⟨ready, before, rfl, rfl, others⟩ := ih popped
      exact ⟨ready, head :: before, rfl, by simp, List.forall_mem_cons.mpr ⟨waits, others⟩⟩

theorem popReady_none {isReady : Nat → Option Bool} {queue localQueue skipped : List Nat}
    (popped : popReady isReady queue localQueue = .none skipped) :
    skipped = localQueue ++ queue ∧ ∀ req ∈ queue, isReady req = some false := by
  induction queue generalizing localQueue with
  | nil =>
    cases popped
    simp
  | cons head rest ih =>
    unfold popReady at popped
    split at popped
    · cases popped
    · cases popped
    · rename_i waits
      obtain ⟨rfl, others⟩ := ih popped
      exact ⟨by simp, List.forall_mem_cons.mpr ⟨waits, others⟩⟩

theorem popReady_threw {isReady : Nat → Option Bool} {queue localQueue left skipped : List Nat}
    (popped : popReady isReady queue localQueue = .threw left skipped) :
    ∃ e before, queue = before ++ e :: left ∧ skipped = localQueue ++ before ∧
      isReady e = none ∧ ∀ req ∈ before, isReady req = some false := by
  induction queue generalizing localQueue with
  | nil => cases popped
  | cons head rest ih =>
    unfold popReady at popped
    split at popped
    · cases popped
      exact ⟨head, [], rfl, by simp, ‹_›, by simp⟩
    · cases popped
    · rename_i waits
      obtain ⟨e, before, rfl, rfl, failed, others⟩ := ih popped
      exact ⟨e, head :: before, rfl, by simp, failed, List.forall_mem_cons.mpr ⟨waits, others⟩⟩

end Oomph.Nccl
