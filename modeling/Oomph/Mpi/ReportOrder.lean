import Oomph.Mpi.Compaction
import Oomph.Mpi.Communicator
import Oomph.Machine.Run

namespace Oomph.Mpi

open Machine

/-! `MPI_Testsome` may list the completed requests in any order.  The loop of `progress` walks the
queue once and compares each position with the next entry of the report only, so an entry that
comes after a larger one is never met.
-/

/-- The requests at the reported positions, in the order of the report. -/
def reported (queue positions : List Nat) : List Nat :=
  positions.filterMap (queue[·]?)

def unreported (queue positions : List Nat) : List Nat :=
  (queue.zipIdx.filter fun entry => entry.2 ∉ positions).map Prod.fst

/-- One turn of the loop over `m_ready_queue` with a callback that calls nothing. -/
def State.callBack (s : State) (e : Nat) : State :=
  ((s.releaseSelfRef e).callCb e).finishCb e

/-- `progress` of a queue from the report on, with callbacks that call nothing. -/
def State.progressReported (side : Side) (positions : List Nat) (s : State) : State :=
  let compacted := s.compacted side positions
  let done := (compacted.reqs side).readyQueue.foldl State.callBack compacted
  done.setReqs side { done.reqs side with inProgress := false }

structure State.Pended (s : State) (side : Side) : Prop where
  distinct : (s.reqs side).queue.Nodup
  indexed : Indexed s.heap (s.reqs side).queue

/-- What `MPI_Testsome` may report of `count` requests: some of the positions, in any order. -/
structure Report (count : Nat) (positions : List Nat) : Prop where
  nonempty : positions ≠ []
  distinct : positions.Nodup
  inside : ∀ position ∈ positions, position < count

structure Compacts (side : Side) (positions : List Nat) (s t : State) : Prop where
  ready : (t.reqs side).readyQueue.Perm (reported (s.reqs side).queue positions)
  called : Event.calledOps t.history = Event.calledOps s.history +
    (reported (s.reqs side).queue positions).map fun e => (s.heap e).cb
  left : (t.reqs side).queue = unreported (s.reqs side).queue positions
  indexed : Indexed t.heap (t.reqs side).queue

section Walk

variable {queue positions : List Nat} {i : Nat}

/-- A report of which the walk meets every entry is in increasing order. -/
theorem sorted_of_split_length
    (met : (split positions i queue).2.length = positions.length) :
    positions.Pairwise (· < ·) ∧ ∀ position ∈ positions, i ≤ position := by
  induction queue generalizing positions i with
  | nil =>
    have empty : positions = [] := List.eq_nil_of_length_eq_zero (by simpa [split] using met.symm)
    simp [empty]
  | cons e rest ih =>
    by_cases next : positions.head? = some i
    · cases positions with
      | nil => simp at next
      | cons first others =>
        have same : first = i := by simpa using next
        subst first
        simp only [split, next, if_true, List.length_cons, List.tail_cons,
          Nat.add_right_cancel_iff] at met
        obtain ⟨sorted, later⟩ := ih met
        refine ⟨List.pairwise_cons.mpr ⟨later, sorted⟩, ?_⟩
        intro position member
        rcases List.mem_cons.mp member with rfl | member
        · exact Nat.le_refl _
        · exact Nat.le_of_succ_le (later position member)
    · simp only [split, next, if_false] at met
      obtain ⟨sorted, later⟩ := ih met
      exact ⟨sorted, fun position member => Nat.le_of_succ_le (later position member)⟩

private theorem filterMap_shift {e : Nat} {rest : List Nat}
    (later : ∀ position ∈ positions, i + 1 ≤ position) :
    positions.filterMap (fun position => (e :: rest)[position - i]?) =
      positions.filterMap fun position => rest[position - (i + 1)]? := by
  refine List.filterMap_congr fun position member => ?_
  have shift : position - i = position - (i + 1) + 1 := by
    have := later position member
    omega
  rw [shift, List.getElem?_cons_succ]

theorem split_sorted (sorted : positions.Pairwise (· < ·))
    (later : ∀ position ∈ positions, i ≤ position) :
    split positions i queue =
      (((queue.zipIdx i).filter fun entry => entry.2 ∉ positions).map Prod.fst,
        positions.filterMap fun position => queue[position - i]?) := by
  induction queue generalizing positions i with
  | nil => simp [split]
  | cons e rest ih =>
    by_cases next : positions.head? = some i
    · cases positions with
      | nil => simp at next
      | cons first others =>
        have same : first = i := by simpa using next
        subst first
        obtain ⟨below, othersSorted⟩ := List.pairwise_cons.mp sorted
        have tail := ih othersSorted below
        -- the entry that was met is not the position of any request further on
        have further : ((rest.zipIdx (i + 1)).filter fun entry => entry.2 ∉ i :: others) =
            (rest.zipIdx (i + 1)).filter fun entry => entry.2 ∉ others := by
          refine List.filter_congr fun entry member => ?_
          have := List.le_snd_of_mem_zipIdx member
          have different : entry.2 ≠ i := by omega
          simp [different]
        simp only [split, next, if_true, List.tail_cons, tail, List.zipIdx_cons,
          List.filter_cons, List.mem_cons_self, not_true_eq_false, decide_false,
          Bool.false_eq_true, if_false, further, List.filterMap_cons, Nat.sub_self,
          List.getElem?_cons_zero, Prod.mk.injEq, true_and]
        rw [filterMap_shift below]
    · have allLater : ∀ position ∈ positions, i + 1 ≤ position := by
        intro position member
        cases positions with
        | nil => cases member
        | cons first others =>
          have different : first ≠ i := by simpa using next
          have firstLater := later first (by simp)
          rcases List.mem_cons.mp member with rfl | member
          · omega
          · have := (List.pairwise_cons.mp sorted).1 position member
            omega
      have absent : i ∉ positions := fun member => by
        have := allLater i member
        omega
      have tail := ih sorted allLater
      simp only [split, next, if_false, tail, List.zipIdx_cons, List.filter_cons, absent,
        not_false_eq_true, decide_true, if_true, List.map_cons]
      rw [filterMap_shift allLater]

theorem reported_length (inside : ∀ position ∈ positions, position < queue.length) :
    (reported queue positions).length = positions.length := by
  induction positions with
  | nil => rfl
  | cons first others ih =>
    have bound : first < queue.length := inside first (by simp)
    have here : queue[first]? = some queue[first] := List.getElem?_eq_getElem bound
    have rest := ih fun position member => inside position (List.mem_cons_of_mem _ member)
    unfold reported at rest ⊢
    rw [List.filterMap_cons, here, List.length_cons, List.length_cons, rest]

end Walk

section CallBacks

variable {s : State} {side : Side} {positions : List Nat}

theorem foldl_callBack_reqs (ready : List Nat) (s : State) (side : Side) :
    (ready.foldl State.callBack s).reqs side = s.reqs side := by
  induction ready generalizing s with
  | nil => rfl
  | cons e rest ih =>
    rw [List.foldl_cons, ih]
    cases side <;> rfl

theorem foldl_callBack_fault (ready : List Nat) (s : State) :
    (ready.foldl State.callBack s).fault = s.fault := by
  induction ready generalizing s with
  | nil => rfl
  | cons e rest ih =>
    rw [List.foldl_cons, ih]
    rfl

private theorem callBack_heap (s : State) (e other : Nat) :
    ((s.callBack e).heap other).cb = (s.heap other).cb ∧
      ((s.callBack e).heap other).index = (s.heap other).index := by
  by_cases same : other = e
  · subst other
    simp [State.callBack, State.releaseSelfRef, State.callCb, State.finishCb]
  · simp [State.callBack, State.releaseSelfRef, State.callCb, State.finishCb, same]

theorem foldl_callBack_index (ready : List Nat) (s : State) (e : Nat) :
    ((ready.foldl State.callBack s).heap e).index = (s.heap e).index := by
  induction ready generalizing s with
  | nil => rfl
  | cons first rest ih => rw [List.foldl_cons, ih, (callBack_heap s first e).2]

theorem foldl_callBack_called (ready : List Nat) (s : State) :
    Event.calledOps (ready.foldl State.callBack s).history =
      Event.calledOps s.history + ready.map fun e => (s.heap e).cb := by
  induction ready generalizing s with
  | nil => simp
  | cons e rest ih =>
    have others : (rest.map fun x => ((s.callBack e).heap x).cb) =
        rest.map fun x => (s.heap x).cb :=
      List.map_congr_left fun x _ => (callBack_heap s e x).1
    have here : Event.calledOps (s.callBack e).history =
        (s.heap e).cb ::ₘ Event.calledOps s.history := by
      simp [State.callBack, State.releaseSelfRef, State.callCb, State.finishCb]
    rw [List.foldl_cons, ih, others, here, List.map_cons, ← Multiset.cons_coe,
      Multiset.cons_add, Multiset.add_cons]

theorem setReqs_reqs (s : State) (side : Side) (reqs : RequestQueue) :
    (s.setReqs side reqs).reqs side = reqs := by
  cases side <;> rfl

private theorem setReqs_heap (s : State) (side : Side) (reqs : RequestQueue) :
    (s.setReqs side reqs).heap = s.heap := by
  cases side <;> rfl

private theorem setReqs_history (s : State) (side : Side) (reqs : RequestQueue) :
    (s.setReqs side reqs).history = s.history := by
  cases side <;> rfl

private theorem compacted_reqs (s : State) (side : Side) (positions : List Nat) :
    (s.compacted side positions).reqs side =
      { queue := (split positions 0 (s.reqs side).queue).1
        readyQueue := (split positions 0 (s.reqs side).queue).2
        inProgress := true } := by
  obtain ⟨queue, ready⟩ := compact_split s.heap (s.reqs side).queue positions
  rw [← queue, ← ready]
  cases side <;> rfl

theorem progressReported_reqs (s : State) (side : Side) (positions : List Nat) :
    (s.progressReported side positions).reqs side =
      { queue := (split positions 0 (s.reqs side).queue).1
        readyQueue := (split positions 0 (s.reqs side).queue).2
        inProgress := false } := by
  simp only [State.progressReported, setReqs_reqs, foldl_callBack_reqs, compacted_reqs]

theorem progressReported_called (pended : s.Pended side) :
    Event.calledOps (s.progressReported side positions).history =
      Event.calledOps s.history +
        (split positions 0 (s.reqs side).queue).2.map fun e => (s.heap e).cb := by
  obtain ⟨only, -, -⟩ := compact_heap positions pended.distinct pended.indexed
  have history : (s.compacted side positions).history = s.history := by
    cases side <;> rfl
  have heap : (s.compacted side positions).heap = (compact s.heap (s.reqs side).queue positions).heap :=
    rfl
  have callbacks : ((s.compacted side positions).reqs side).readyQueue.map
      (fun e => ((s.compacted side positions).heap e).cb) =
        (split positions 0 (s.reqs side).queue).2.map fun e => (s.heap e).cb := by
    rw [compacted_reqs]
    refine List.map_congr_left fun e _ => ?_
    rw [heap, only e]
  simp only [State.progressReported, setReqs_history, foldl_callBack_called, history, callbacks]

theorem progressReported_indexed (pended : s.Pended side) :
    Indexed (s.progressReported side positions).heap
      ((s.progressReported side positions).reqs side).queue := by
  obtain ⟨-, -, indexed⟩ := compact_heap positions pended.distinct pended.indexed
  rw [(compact_split s.heap (s.reqs side).queue positions).1] at indexed
  intro i e found
  rw [progressReported_reqs] at found
  simp only [State.progressReported, setReqs_heap, foldl_callBack_index]
  exact indexed i e found

/-- The communicator calls back what is left of a ready queue, one request after the other. -/
theorem leads_callBacks (limit : Nat) (ready : List Nat) (s : State) (position : Nat)
    (rest : List Frame) (sane : s.fault = none)
    (left : (s.reqs side).readyQueue.drop position = ready) :
    Leads (step limit)
      { s with stack := .ready side position (s.reqs side).readyQueue.length none :: rest }
      { ready.foldl State.callBack s with
        stack := .ready side (position + ready.length) (s.reqs side).readyQueue.length none ::
          rest } := by
  induction ready generalizing s position with
  | nil => exact .refl
  | cons e more ih =>
    have found : (s.reqs side).readyQueue[position]? = some e := by
      rw [← List.head?_drop, left]
      rfl
    have inside := (List.getElem?_eq_some_iff.mp found).1
    let finish := (s.reqs side).readyQueue.length
    have called : step limit { s with stack := .ready side position finish none :: rest } .visit =
        some { (s.releaseSelfRef e).callCb e with
          stack := .ready side position finish (some e) :: rest } := by
      cases side <;> simp_all [step, State.visitReady, State.startReady, State.releaseSelfRef,
        State.callCb, State.reqs, finish]
    have returned : step limit { (s.releaseSelfRef e).callCb e with
          stack := .ready side position finish (some e) :: rest } .callbackReturns =
        some { s.callBack e with stack := .ready side (position + 1) finish none :: rest } := by
      simp [step, State.returnCallback, State.releaseSelfRef, State.callCb, State.finishCb,
        State.callBack, sane]
    have same : (s.callBack e).reqs side = s.reqs side := foldl_callBack_reqs [e] s side
    have later := ih (s.callBack e) (position + 1) sane (by
      rw [same, ← List.drop_drop, left]
      rfl)
    rw [same, Nat.add_right_comm] at later
    exact ((leads_one called).trans (leads_one returned)).trans later

private theorem visit_end (limit finish : Nat) (rest : List Frame) (sane : s.fault = none) :
    step limit { s with stack := .ready side finish finish none :: rest } .visit =
      some { s.setReqs side { s.reqs side with inProgress := false } with stack := rest } := by
  obtain ⟨⟩ := s
  cases sane
  cases side <;> simp [step, State.visitReady, State.setReqs, State.reqs]

/-- What the communicator does after a report, when each callback returns at once. -/
theorem leads_progressReported (limit : Nat) (next : Stage) (rest : List Frame)
    (sane : s.fault = none) :
    Leads (step limit) (s.enterLoop side positions next rest)
      { s.progressReported side positions with stack := .progress next :: rest } := by
  let compacted := s.compacted side positions
  let done := (compacted.reqs side).readyQueue.foldl State.callBack compacted
  have calm : compacted.fault = none := by cases side <;> exact sane
  have looped : Leads (step limit) (s.enterLoop side positions next rest) { done with
      stack := .ready side (0 + (compacted.reqs side).readyQueue.length)
        (compacted.reqs side).readyQueue.length none :: .progress next :: rest } :=
    leads_callBacks limit _ compacted 0 (.progress next :: rest) calm rfl
  have doneCalm : done.fault = none := (foldl_callBack_fault _ compacted).trans calm
  rw [Nat.zero_add] at looped
  exact looped.trans (leads_one (visit_end limit _ _ doneCalm))

/-- Both of two queued receives are reported. -/
theorem leads_progressReported_two :
    ∃ s, Leads (step 20) .initial s ∧ s.recvs.queue = [0, 1] ∧
      Leads (step 20) (s.enterLoop .recvs [0, 1] .context [])
        { s.progressReported .recvs [0, 1] with stack := [.progress .context] } := by
  obtain ⟨s, reached, queue, sane⟩ := exists_of_run (step 20) (fun _ _ => True) State.initial
    [.post .recv 1 7 .incomplete, .post .recv 1 8 .incomplete]
    (fun s => s.recvs.queue = [0, 1] ∧ s.fault = none) (by decide)
  exact ⟨s, reached, queue, leads_progressReported 20 .context [] sane⟩

end CallBacks

/-- `progress` does what is expected of it exactly for reports in increasing order. -/
theorem compacts_iff_sorted {s : State} {side : Side} {positions : List Nat}
    (pended : s.Pended side) (report : Report (s.reqs side).queue.length positions) :
    Compacts side positions s (s.progressReported side positions) ↔
      positions.Pairwise (· < ·) := by
  constructor
  · intro compacts
    have met := compacts.ready.length_eq
    rw [progressReported_reqs, reported_length report.inside] at met
    exact (sorted_of_split_length met).1
  · intro sorted
    have found : split positions 0 (s.reqs side).queue = (_, _) :=
      split_sorted sorted fun _ _ => Nat.zero_le _
    have ready : (split positions 0 (s.reqs side).queue).2 = reported (s.reqs side).queue positions := by
      rw [found]
      rfl
    refine ⟨?_, ?_, ?_, progressReported_indexed pended⟩
    · rw [progressReported_reqs, ready]
    · rw [progressReported_called pended, ready]
    · rw [progressReported_reqs, found]
      rfl

/-- Three receives, of which the first and the last are reported. -/
theorem compacts_iff_sorted_posted :
    ∃ s, Leads (step 20) State.initial s ∧ s.Pended .recvs ∧
      Report (s.reqs .recvs).queue.length [0, 2] ∧
      Compacts .recvs [0, 2] s (s.progressReported .recvs [0, 2]) := by
  let s := ((State.initial.create .recv 1 7).create .recv 1 8).create .recv 1 9
  have ran : run (step 20) (fun _ _ => True) State.initial [.post .recv 1 7 .incomplete,
      .post .recv 1 8 .incomplete, .post .recv 1 9 .incomplete] = some s := rfl
  have reached : Leads (step 20) State.initial s := reaches_of_run ran
  have pended : s.Pended .recvs := by
    refine ⟨by decide, fun i e found => ?_⟩
    rcases i with _ | _ | _ | i <;> cases found <;> rfl
  have report : Report (s.reqs .recvs).queue.length [0, 2] :=
    ⟨by decide, by decide, by decide⟩
  exact ⟨s, reached, pended, report, (compacts_iff_sorted pended report).mpr (by decide)⟩

/-- Two receives are reported in decreasing order: the first one stays in the queue and is not
called back. -/
theorem decreasing_report_loses_receive :
    ∃ s, Leads (step 20) State.initial s ∧ Report (s.reqs .recvs).queue.length [1, 0] ∧
      ¬ Compacts .recvs [1, 0] s (s.progressReported .recvs [1, 0]) ∧
      (s.progressReported .recvs [1, 0]).recvs.queue = [0] ∧
      Event.calledOps (s.progressReported .recvs [1, 0]).history = {1} := by
  have ran : run (step 20) (fun _ _ => True) State.initial [.post .recv 1 7 .incomplete,
      .post .recv 1 8 .incomplete] = some ((State.initial.create .recv 1 7).create .recv 1 8) := rfl
  refine ⟨_, reaches_of_run ran, ⟨by decide, by decide, by decide⟩, fun compacts => ?_, by decide,
    by decide⟩
  exact absurd compacts.left (by decide)

end Oomph.Mpi
