import Oomph.Machine.Pool
import Mathlib.Logic.Function.Basic
import Mathlib.Tactic.Abel

namespace Oomph.Ucx.Closing

open Machine

/-! `~communicator_impl` asks UCX to close its endpoints and looks at each request once.
`~context_impl` goes on looking at the requests that are left, and when it has waited too long it
frees them as they are.
-/

inductive Status
  | inProgress
  | ok
  | error
deriving DecidableEq, Repr

inductive Outcome
  | ok
  | error
deriving DecidableEq, Repr

def Outcome.status : Outcome → Status
  | .ok => .ok
  | .error => .error

/-- What `ucp_request_check_status` will answer for a request: `UCS_INPROGRESS` as often as it is
pending, and then its outcome for good. -/
structure Report where
  pending : Nat
  outcome : Outcome
deriving DecidableEq, Repr

def Report.status (report : Report) : Status :=
  if report.pending = 0 then report.outcome.status else .inProgress

def Report.next (report : Report) : Report :=
  { report with pending := report.pending - 1 }

inductive Event
  /-- The status of a request was asked for, and then its handle reported this by `ready()`. -/
  | checked (request : Nat) (status : Status) (ready : Bool)
  /-- `ucp_request_free`, with the status of the request at that time. -/
  | freed (request : Nat) (status : Status) (timeout : Bool)
deriving DecidableEq, Repr

structure State where
  reports : Nat → Report
  events : List Event

def Event.freedRequests : List Event → Multiset Nat
  | [] => 0
  | .checked _ _ _ :: rest => freedRequests rest
  | .freed request _ _ :: rest => request ::ₘ freedRequests rest

def State.freed (s : State) : Multiset Nat :=
  Event.freedRequests s.events

/-- The handle of an endpoint that is closed already has no request. -/
structure CloseHandle where
  done : Bool
  status : Option Nat
deriving DecidableEq, Repr

/-- `close_handle::progress` -/
def CloseHandle.progress (h : CloseHandle) (s : State) : CloseHandle × State :=
  match h.done, h.status with
  | false, some request =>
    let status := (s.reports request).status
    let reports := Function.update s.reports request (s.reports request).next
    if status ≠ .ok then
      ({ h with done := true },
        { reports, events := .checked request status true :: .freed request status false ::
            s.events })
    else (h, { reports, events := .checked request status false :: s.events })
  | _, _ => (h, s)

inductive CloseAnswer
  | ok
  | error
  | request (request : Nat)
deriving DecidableEq, Repr

structure Endpoint where
  moved : Bool
  answer : CloseAnswer
deriving DecidableEq, Repr

def Endpoint.close (endpoint : Endpoint) : CloseHandle :=
  if endpoint.moved then { done := true, status := none }
  else
    match endpoint.answer with
    | .ok => { done := true, status := none }
    | .error => { done := true, status := none }
    | .request request => { done := false, status := some request }

/-- `~communicator_impl`, which leaves the handles with its worker. -/
def destroyCommunicator : List Endpoint → State → List CloseHandle × State
  | [], s => ([], s)
  | endpoint :: rest, s =>
    let first := endpoint.close.progress s
    let others := destroyCommunicator rest first.2
    (first.1 :: others.1, others.2)

/-- The handles of all workers, when all communicators are gone. -/
def destroyCommunicators : List (List Endpoint) → State → List CloseHandle × State
  | [], s => ([], s)
  | endpoints :: rest, s =>
    let first := destroyCommunicator endpoints s
    let others := destroyCommunicators rest first.2
    (first.1 ++ others.1, others.2)

/-- One pass of the loop in `~context_impl` over the handles, which returns `tmp`. -/
def pass : List CloseHandle → State → List CloseHandle × State
  | [], s => ([], s)
  | h :: rest, s =>
    let first := h.progress s
    let others := pass rest first.2
    (if first.1.done then others.1 else first.1 :: others.1, others.2)

/-- The loop, with the number of passes that begin before the timeout. -/
def closeLoop : Nat → List CloseHandle → State → List CloseHandle × State
  | 0, handles, s => (handles, s)
  | passes + 1, handles, s =>
    if handles = [] then ([], s)
    else closeLoop passes (pass handles s).1 (pass handles s).2

def freeLeft : List CloseHandle → State → State
  | [], s => s
  | h :: rest, s =>
    match h.status with
    | some request => freeLeft rest { s with
        events := .freed request (s.reports request).status true :: s.events }
    | none => freeLeft rest s

/-- The state at the end of `~context_impl`, and whether the timeout was reached. -/
def shutdown (comms : List (List Endpoint)) (passes : Nat) (reports : Nat → Report) :
    State × Bool :=
  let closing := destroyCommunicators comms { reports, events := [] }
  let left := closeLoop passes closing.1 closing.2
  (freeLeft left.1 left.2, !left.1.isEmpty)

/-- The requests with which UCX closes the endpoints, where it does not do so at once. -/
def requests (comms : List (List Endpoint)) : List Nat :=
  comms.flatten.filterMap (·.close.status)

structure Closes (comms : List (List Endpoint)) (passes : Nat) (reports : Nat → Report) : Prop where
  ready : ∀ request status ready,
    .checked request status ready ∈ (shutdown comms passes reports).1.events →
      (ready = true ↔ status ≠ .inProgress)
  once : ∀ request ∈ requests comms, (shutdown comms passes reports).1.freed.count request = 1
  waits : ∀ request timeout,
    .freed request .inProgress timeout ∈ (shutdown comms passes reports).1.events → timeout = true
  ends : (∀ request ∈ requests comms, (reports request).pending ≤ passes) →
    (shutdown comms passes reports).2 = false

section Progress

variable {h : CloseHandle} {s : State} {request : Nat}

def State.check (s : State) (request : Nat) (events : List Event) : State :=
  { reports := Function.update s.reports request (s.reports request).next
    events := events ++ s.events }

theorem progress_ok (undone : h.done = false) (found : h.status = some request)
    (ended : (s.reports request).status = .ok) :
    h.progress s = (h, s.check request [.checked request .ok false]) := by
  simp [CloseHandle.progress, State.check, undone, found, ended]

theorem progress_freeing (undone : h.done = false) (found : h.status = some request)
    (other : (s.reports request).status ≠ .ok) :
    h.progress s = ({ h with done := true }, s.check request
      [.checked request (s.reports request).status true,
        .freed request (s.reports request).status false]) := by
  simp [CloseHandle.progress, State.check, undone, found, other]

theorem progress_done (done : h.done = true) : h.progress s = (h, s) := by
  simp [CloseHandle.progress, done]

theorem progress_none (none : h.status = none) : h.progress s = (h, s) := by
  simp only [CloseHandle.progress, none]
  split <;> simp_all

theorem progress_cases (h : CloseHandle) (s : State) :
    h.progress s = (h, s) ∨ ∃ request, h.done = false ∧ h.status = some request := by
  cases done : h.done with
  | true => exact .inl (progress_done done)
  | false =>
    cases found : h.status with
    | none => exact .inl (progress_none found)
    | some request => exact .inr ⟨request, rfl, rfl⟩

end Progress

def CloseHandle.unfreed (h : CloseHandle) : Multiset Nat :=
  if h.done then 0 else h.status.toList

theorem progress_freed (h : CloseHandle) (s : State) :
    (h.progress s).2.freed + (h.progress s).1.unfreed = s.freed + h.unfreed := by
  rcases progress_cases h s with same | ⟨request, undone, found⟩
  · rw [same]
  · by_cases ended : (s.reports request).status = .ok
    · rw [progress_ok undone found ended]
      rfl
    · rw [progress_freeing undone found ended]
      simp [State.check, State.freed, CloseHandle.unfreed, Event.freedRequests, undone, found,
        ← Multiset.singleton_add, add_comm]

theorem destroyCommunicator_freed (endpoints : List Endpoint) (s : State) :
    (destroyCommunicator endpoints s).2.freed + total CloseHandle.unfreed (destroyCommunicator endpoints s).1 =
      s.freed + endpoints.filterMap (·.close.status) := by
  induction endpoints generalizing s with
  | nil => simp [destroyCommunicator]
  | cons endpoint rest ih =>
    have asked : (endpoint.close.unfreed + (rest.filterMap (·.close.status) : List Nat) :
        Multiset Nat) = ((endpoint :: rest).filterMap (·.close.status) : List Nat) := by
      unfold Endpoint.close
      split
      · simp [CloseHandle.unfreed, *]
      · split <;> simp [CloseHandle.unfreed, *]
    have later := ih (endpoint.close.progress s).2
    have first := progress_freed endpoint.close s
    rw [← asked, ← add_assoc, ← first, add_right_comm, ← later, destroyCommunicator, total_cons]
    abel

theorem destroyCommunicator_append (front back : List Endpoint) (s : State) :
    destroyCommunicator (front ++ back) s =
      ((destroyCommunicator front s).1 ++
          (destroyCommunicator back (destroyCommunicator front s).2).1,
        (destroyCommunicator back (destroyCommunicator front s).2).2) := by
  induction front generalizing s with
  | nil => rfl
  | cons endpoint rest ih => simp only [List.cons_append, destroyCommunicator, ih]

theorem destroyCommunicators_eq (comms : List (List Endpoint)) (s : State) :
    destroyCommunicators comms s = destroyCommunicator comms.flatten s := by
  induction comms generalizing s with
  | nil => rfl
  | cons endpoints rest ih =>
    rw [List.flatten_cons, destroyCommunicator_append, destroyCommunicators, ih]

theorem pass_freed (handles : List CloseHandle) (s : State) :
    (pass handles s).2.freed + total CloseHandle.unfreed (pass handles s).1 =
      s.freed + total CloseHandle.unfreed handles := by
  induction handles generalizing s with
  | nil => rfl
  | cons h rest ih =>
    have first := progress_freed h s
    have later := ih (h.progress s).2
    have kept : total CloseHandle.unfreed (pass (h :: rest) s).1 =
        (h.progress s).1.unfreed + total CloseHandle.unfreed (pass rest (h.progress s).2).1 := by
      rw [pass]
      by_cases done : (h.progress s).1.done = true
      · simp [done, CloseHandle.unfreed]
      · simp [done]
    rw [kept, total_cons, ← add_assoc s.freed, ← first, add_right_comm, ← later, pass]
    abel

theorem pass_undone (handles : List CloseHandle) (s : State) :
    ∀ h ∈ (pass handles s).1, h.done = false := by
  induction handles generalizing s with
  | nil => simp [pass]
  | cons h rest ih =>
    rw [pass]
    by_cases done : (h.progress s).1.done = true
    · simpa [done] using ih (h.progress s).2
    · simp only [Bool.not_eq_true] at done
      simpa [done] using ih (h.progress s).2

theorem closeLoop_freed (passes : Nat) (handles : List CloseHandle) (s : State) :
    (closeLoop passes handles s).2.freed + total CloseHandle.unfreed (closeLoop passes handles s).1 =
      s.freed + total CloseHandle.unfreed handles := by
  induction passes generalizing handles s with
  | zero => rfl
  | succ passes ih =>
    rw [closeLoop]
    split
    · rename_i none
      rw [none]
    · rw [ih, pass_freed]

theorem closeLoop_undone (passes : Nat) (handles : List CloseHandle) (s : State)
    (undone : ∀ h ∈ handles, h.done = false) :
    ∀ h ∈ (closeLoop passes handles s).1, h.done = false := by
  induction passes generalizing handles s with
  | zero => exact undone
  | succ passes ih =>
    rw [closeLoop]
    split
    · nofun
    · exact ih _ _ (pass_undone handles s)

theorem freeLeft_freed (handles : List CloseHandle) (s : State)
    (undone : ∀ h ∈ handles, h.done = false) :
    (freeLeft handles s).freed = s.freed + total CloseHandle.unfreed handles := by
  induction handles generalizing s with
  | nil => simp [freeLeft]
  | cons h rest ih =>
    obtain ⟨here, others⟩ := List.forall_mem_cons.mp undone
    rw [freeLeft]
    split
    · rename_i request found
      rw [ih _ others, total_cons, CloseHandle.unfreed, here, found]
      simp [State.freed, Event.freedRequests, ← Multiset.singleton_add]
      abel
    · rename_i none
      rw [ih _ others, total_cons, CloseHandle.unfreed, here, none]
      simp

/-- Whatever UCX reports, each request is freed once. -/
theorem shutdown_freed (comms : List (List Endpoint)) {passes : Nat} (begun : 0 < passes)
    (reports : Nat → Report) : (shutdown comms passes reports).1.freed = requests comms := by
  let closing := destroyCommunicators comms { reports, events := [] }
  have closed : closing.2.freed + total CloseHandle.unfreed closing.1 = requests comms := by
    have split := destroyCommunicator_freed comms.flatten { reports, events := [] }
    rw [← destroyCommunicators_eq] at split
    exact split.trans (zero_add _)
  -- the handles that are done leave in the first pass
  have undone : ∀ h ∈ (closeLoop passes closing.1 closing.2).1, h.done = false := by
    obtain ⟨further, rfl⟩ := Nat.exists_eq_add_of_lt begun
    rw [Nat.zero_add, closeLoop]
    split
    · nofun
    · exact closeLoop_undone further _ _ (pass_undone _ _)
  have loop := closeLoop_freed passes closing.1 closing.2
  rw [closed] at loop
  exact (freeLeft_freed _ _ undone).trans loop

theorem progress_events (h : CloseHandle) (s : State) : s.events <:+ (h.progress s).2.events := by
  rcases progress_cases h s with same | ⟨request, undone, found⟩
  · simp [same]
  · by_cases ended : (s.reports request).status = .ok
    · rw [progress_ok undone found ended]
      exact List.suffix_append _ _
    · rw [progress_freeing undone found ended]
      exact List.suffix_append _ _

theorem destroyCommunicator_events (endpoints : List Endpoint) (s : State) :
    s.events <:+ (destroyCommunicator endpoints s).2.events := by
  induction endpoints generalizing s with
  | nil => exact List.suffix_refl _
  | cons endpoint rest ih => exact (progress_events _ s).trans (ih _)

theorem pass_events (handles : List CloseHandle) (s : State) :
    s.events <:+ (pass handles s).2.events := by
  induction handles generalizing s with
  | nil => exact List.suffix_refl _
  | cons h rest ih => exact (progress_events h s).trans (ih _)

theorem closeLoop_events (passes : Nat) (handles : List CloseHandle) (s : State) :
    s.events <:+ (closeLoop passes handles s).2.events := by
  induction passes generalizing handles s with
  | zero => exact List.suffix_refl _
  | succ passes ih =>
    rw [closeLoop]
    split
    · exact List.suffix_refl _
    · exact (pass_events handles s).trans (ih _ _)

theorem freeLeft_events (handles : List CloseHandle) (s : State) :
    s.events <:+ (freeLeft handles s).events := by
  induction handles generalizing s with
  | nil => exact List.suffix_refl _
  | cons h rest ih =>
    rw [freeLeft]
    split
    · rename_i request _
      have grown := ih { s with
        events := .freed request (s.reports request).status true :: s.events }
      exact (List.suffix_cons _ _).trans grown
    · exact ih _

theorem progress_reports {h : CloseHandle} {request : Nat} (other : h.status ≠ some request)
    (s : State) : (h.progress s).2.reports request = s.reports request := by
  rcases progress_cases h s with same | ⟨own, undone, found⟩
  · rw [same]
  · have different : request ≠ own := fun same => other (same ▸ found)
    by_cases ended : (s.reports own).status = .ok
    · rw [progress_ok undone found ended]
      exact Function.update_of_ne different _ _
    · rw [progress_freeing undone found ended]
      exact Function.update_of_ne different _ _

theorem close_done (endpoint : Endpoint) : endpoint.close.done = endpoint.close.status.isNone := by
  obtain ⟨moved, answer⟩ := endpoint
  cases moved <;> cases answer <;> rfl

/-- `~communicator_impl` checks each request once and takes every status but `UCS_OK` for the end. -/
theorem destroyCommunicator_checked {endpoints : List Endpoint} (s : State)
    (distinct : (endpoints.filterMap (·.close.status)).Nodup) {request : Nat}
    (asked : request ∈ endpoints.filterMap (·.close.status)) :
    .checked request (s.reports request).status ((s.reports request).status ≠ .ok) ∈
      (destroyCommunicator endpoints s).2.events := by
  induction endpoints generalizing s with
  | nil => cases asked
  | cons endpoint rest ih =>
    cases found : endpoint.close.status with
    | none =>
      simp only [List.filterMap_cons, found] at distinct asked
      have later := ih (endpoint.close.progress s).2 distinct asked
      rwa [progress_reports (by simp [found])] at later
    | some own =>
      simp only [List.filterMap_cons, found] at distinct asked
      obtain ⟨fresh, distinctRest⟩ := List.nodup_cons.mp distinct
      rcases List.mem_cons.mp asked with rfl | later
      · refine (destroyCommunicator_events rest _).subset ?_
        have undone : endpoint.close.done = false := by simp [close_done, found]
        by_cases ended : (s.reports request).status = .ok
        · rw [progress_ok undone found ended]
          simp [State.check, ended]
        · rw [progress_freeing undone found ended]
          simp [State.check, ended]
      · have different : endpoint.close.status ≠ some request := by
          rw [found]
          rintro ⟨⟩
          exact fresh later
        have checked := ih (endpoint.close.progress s).2 distinctRest later
        rwa [progress_reports different] at checked

def Report.Failed (report : Report) : Prop :=
  report.pending = 0 ∧ report.outcome = .error

theorem status_eq_error {report : Report} : report.status = .error ↔ report.Failed := by
  obtain ⟨pending, outcome⟩ := report
  cases pending <;> cases outcome <;> simp [Report.status, Report.Failed, Outcome.status]

theorem Report.Failed.next {report : Report} (failed : report.Failed) : report.next.Failed :=
  ⟨by simp [Report.next, failed.1], failed.2⟩

def Event.OfFailed : Event → Prop
  | .checked _ status ready => status = .error ∧ ready = true
  | .freed _ status timeout => status = .error ∧ timeout = false

theorem destroyCommunicator_failed {endpoints : List Endpoint} {s : State}
    (failed : ∀ request ∈ endpoints.filterMap (·.close.status), (s.reports request).Failed)
    (earlier : ∀ event ∈ s.events, event.OfFailed) :
    (∀ h ∈ (destroyCommunicator endpoints s).1, h.done = true) ∧
      ∀ event ∈ (destroyCommunicator endpoints s).2.events, event.OfFailed := by
  induction endpoints generalizing s with
  | nil => exact ⟨nofun, earlier⟩
  | cons endpoint rest ih =>
    cases found : endpoint.close.status with
    | none =>
      have closed : endpoint.close.done = true := by simp [close_done, found]
      simp only [List.filterMap_cons, found] at failed
      rw [destroyCommunicator, progress_done closed]
      obtain ⟨done, events⟩ := ih failed earlier
      exact ⟨List.forall_mem_cons.mpr ⟨closed, done⟩, events⟩
    | some request =>
      simp only [List.filterMap_cons, found, List.mem_cons, forall_eq_or_imp] at failed
      have error := status_eq_error.mpr failed.1
      have undone : endpoint.close.done = false := by simp [close_done, found]
      rw [destroyCommunicator, progress_freeing undone found (by simp [error]), error]
      have still : ∀ other ∈ rest.filterMap (·.close.status),
          (Function.update s.reports request (s.reports request).next other).Failed := by
        intro other member
        by_cases same : other = request
        · subst other
          rw [Function.update_self]
          exact failed.1.next
        · rw [Function.update_of_ne same]
          exact failed.2 other member
      have recorded : ∀ event ∈ (s.check request
          [.checked request .error true, .freed request .error false]).events,
          event.OfFailed := by
        simpa [State.check, Event.OfFailed] using earlier
      obtain ⟨done, events⟩ := ih (s := s.check request _) still recorded
      exact ⟨List.forall_mem_cons.mpr ⟨rfl, done⟩, events⟩

theorem pass_done {handles : List CloseHandle} (done : ∀ h ∈ handles, h.done = true) (s : State) :
    pass handles s = ([], s) := by
  induction handles with
  | nil => rfl
  | cons h rest ih =>
    obtain ⟨here, others⟩ := List.forall_mem_cons.mp done
    simp [pass, progress_done here, here, ih others]

theorem closeLoop_done {passes : Nat} {handles : List CloseHandle} (begun : 0 < passes)
    (done : ∀ h ∈ handles, h.done = true) (s : State) : closeLoop passes handles s = ([], s) := by
  obtain ⟨further, rfl⟩ := Nat.exists_eq_add_of_lt begun
  rw [Nat.zero_add, closeLoop, pass_done done]
  split
  · rfl
  · cases further <;> simp [closeLoop]

/-- The destructors do what is expected of them exactly when every request that UCX starts has
failed by the time it is looked at first. -/
theorem closes_iff_failed (comms : List (List Endpoint)) (passes : Nat) (reports : Nat → Report)
    (distinct : (requests comms).Nodup) (begun : 0 < passes) :
    Closes comms passes reports ↔ ∀ request ∈ requests comms, (reports request).Failed := by
  constructor
  · intro closes request asked
    have checked := destroyCommunicator_checked { reports, events := [] } distinct asked
    rw [← destroyCommunicators_eq] at checked
    have recorded : .checked request (reports request).status ((reports request).status ≠ .ok) ∈
        (shutdown comms passes reports).1.events :=
      (freeLeft_events _ _).subset ((closeLoop_events _ _ _).subset checked)
    have law := closes.ready _ _ _ recorded
    rw [← status_eq_error]
    cases status : (reports request).status <;> simp [status] at law ⊢
  · intro failed
    obtain ⟨done, events⟩ := destroyCommunicator_failed (s := { reports, events := [] })
      failed nofun
    rw [← destroyCommunicators_eq] at done events
    have ended := closeLoop_done begun done (destroyCommunicators comms { reports, events := [] }).2
    have result : shutdown comms passes reports =
        ((destroyCommunicators comms { reports, events := [] }).2, false) := by
      rw [shutdown, ended]
      rfl
    refine ⟨?_, ?_, ?_, fun _ => by rw [result]⟩
    · intro request status ready member
      rw [result] at member
      obtain ⟨rfl, rfl⟩ : status = .error ∧ ready = true := events _ member
      simp
    · intro request asked
      rw [shutdown_freed comms begun reports]
      exact Multiset.count_eq_one_of_mem (Multiset.coe_nodup.mpr distinct) asked
    · intro request timeout member
      rw [result] at member
      cases (events _ member).1

/-- Two endpoints of one communicator and one of another, which was closed at once. -/
theorem closes_iff_failed_twice :
    Closes [[⟨false, .request 0⟩, ⟨false, .request 1⟩], [⟨false, .ok⟩]] 3
      (fun _ => ⟨0, .error⟩) :=
  (closes_iff_failed _ 3 _ (by decide) (by decide)).mpr fun _ _ => ⟨rfl, rfl⟩

/-- A request that is in progress is freed at once, and one that has ended well is freed only
after the timeout. -/
theorem close_in_progress_freed :
    (shutdown [[⟨false, .request 0⟩]] 3 fun _ => ⟨2, .ok⟩).1.events =
        [.checked 0 .inProgress true, .freed 0 .inProgress false] ∧
      (shutdown [[⟨false, .request 0⟩]] 3 fun _ => ⟨0, .ok⟩).1.events =
        [.freed 0 .ok true, .checked 0 .ok false, .checked 0 .ok false, .checked 0 .ok false,
          .checked 0 .ok false] ∧
      ¬ Closes [[⟨false, .request 0⟩]] 3 (fun _ => ⟨2, .ok⟩) ∧
      ¬ Closes [[⟨false, .request 0⟩]] 3 fun _ => ⟨0, .ok⟩ := by
  refine ⟨by decide, by decide, fun closes => ?_, fun closes => ?_⟩
  · exact absurd ((closes.ready 0 .inProgress true (by decide)).mp rfl) (by decide)
  · exact absurd (closes.ends (by decide)) (by decide)

end Oomph.Ucx.Closing
