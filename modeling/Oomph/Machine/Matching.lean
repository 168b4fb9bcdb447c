import Mathlib.Data.List.Perm.Basic

namespace Machine

/-! An endpoint keeps receives that no message has matched yet and messages that no receive
has matched yet, both in order.  A receive takes the first such message it accepts, and
a message the first such receive that accepts it.
-/

variable {Recv Msg : Type*}

structure Endpoint (Recv Msg : Type*) where
  posted : List Recv
  unexpected : List Msg
  matched : List (Recv × Msg)

inductive Arrival (Recv Msg : Type*)
  | post (recv : Recv)
  | arrive (msg : Msg)

namespace Arrival

def recv? : Arrival Recv Msg → Option Recv
  | .post recv => some recv
  | .arrive _ => none

def msg? : Arrival Recv Msg → Option Msg
  | .post _ => none
  | .arrive msg => some msg

theorem recvs_append (recvs : List Recv) (msgs : List Msg) :
    (recvs.map Arrival.post ++ msgs.map Arrival.arrive).filterMap Arrival.recv? = recvs := by
  induction recvs with
  | nil =>
    induction msgs with
    | nil => rfl
    | cons msg rest ih => exact ih
  | cons recv rest ih => exact congrArg (recv :: ·) ih

theorem msgs_append (recvs : List Recv) (msgs : List Msg) :
    (recvs.map Arrival.post ++ msgs.map Arrival.arrive).filterMap Arrival.msg? = msgs := by
  induction recvs with
  | nil =>
    induction msgs with
    | nil => rfl
    | cons msg rest ih => exact congrArg (msg :: ·) ih
  | cons recv rest ih => exact ih

end Arrival

namespace Endpoint

def empty : Endpoint Recv Msg := { posted := [], unexpected := [], matched := [] }

def take (accepts : Recv → Msg → Bool) (endpoint : Endpoint Recv Msg) :
    Arrival Recv Msg → Endpoint Recv Msg
  | .post recv =>
    match endpoint.unexpected.find? (accepts recv) with
    | some msg => { endpoint with
        unexpected := endpoint.unexpected.eraseP (accepts recv)
        matched := (recv, msg) :: endpoint.matched }
    | none => { endpoint with posted := endpoint.posted ++ [recv] }
  | .arrive msg =>
    match endpoint.posted.find? (accepts · msg) with
    | some recv => { endpoint with
        posted := endpoint.posted.eraseP (accepts · msg)
        matched := (recv, msg) :: endpoint.matched }
    | none => { endpoint with unexpected := endpoint.unexpected ++ [msg] }

def takeAll (accepts : Recv → Msg → Bool) (endpoint : Endpoint Recv Msg)
    (arrivals : List (Arrival Recv Msg)) : Endpoint Recv Msg :=
  arrivals.foldl (take accepts) endpoint

variable {accepts : Recv → Msg → Bool} {endpoint : Endpoint Recv Msg} {recv : Recv} {msg : Msg}

/-- Everything at the endpoint comes from the given receives and messages, and what is
matched is accepted. -/
structure From (accepts : Recv → Msg → Bool) (recvs : Recv → Prop) (msgs : Msg → Prop)
    (endpoint : Endpoint Recv Msg) : Prop where
  posted : ∀ recv ∈ endpoint.posted, recvs recv
  unexpected : ∀ msg ∈ endpoint.unexpected, msgs msg
  matched : ∀ pair ∈ endpoint.matched, recvs pair.1 ∧ msgs pair.2 ∧ accepts pair.1 pair.2 = true

variable {recvs : Recv → Prop} {msgs : Msg → Prop}

theorem From.post (origin : From accepts recvs msgs endpoint) (known : recvs recv) :
    From accepts recvs msgs (endpoint.take accepts (.post recv)) := by
  cases found : endpoint.unexpected.find? (accepts recv) with
  | none =>
    simp only [take, found]
    refine ⟨fun other member => ?_, origin.unexpected, origin.matched⟩
    rcases List.mem_append.mp member with old | new
    · exact origin.posted other old
    · rw [List.mem_singleton.mp new]
      exact known
  | some msg =>
    have arrived := origin.unexpected msg (List.mem_of_find?_eq_some found)
    have accepted : accepts recv msg = true := List.find?_some found
    simp only [take, found]
    refine ⟨origin.posted, fun other member => ?_, fun pair member => ?_⟩
    · exact origin.unexpected other (List.mem_of_mem_eraseP member)
    · rcases List.mem_cons.mp member with new | old
      · subst pair
        exact ⟨known, arrived, accepted⟩
      · exact origin.matched pair old

theorem From.arrive (origin : From accepts recvs msgs endpoint) (known : msgs msg) :
    From accepts recvs msgs (endpoint.take accepts (.arrive msg)) := by
  cases found : endpoint.posted.find? (accepts · msg) with
  | none =>
    simp only [take, found]
    refine ⟨origin.posted, fun other member => ?_, origin.matched⟩
    rcases List.mem_append.mp member with old | new
    · exact origin.unexpected other old
    · rw [List.mem_singleton.mp new]
      exact known
  | some recv =>
    have posted := origin.posted recv (List.mem_of_find?_eq_some found)
    have accepted := List.find?_some found
    simp only [take, found]
    refine ⟨fun other member => ?_, origin.unexpected, fun pair member => ?_⟩
    · exact origin.posted other (List.mem_of_mem_eraseP member)
    · rcases List.mem_cons.mp member with new | old
      · subst pair
        exact ⟨posted, known, accepted⟩
      · exact origin.matched pair old

theorem From.takeAll (origin : From accepts recvs msgs endpoint)
    {arrivals : List (Arrival Recv Msg)}
    (posts : ∀ recv, .post recv ∈ arrivals → recvs recv)
    (arrives : ∀ msg, .arrive msg ∈ arrivals → msgs msg) :
    From accepts recvs msgs (endpoint.takeAll accepts arrivals) := by
  induction arrivals generalizing endpoint with
  | nil => exact origin
  | cons arrival rest ih =>
    have later : From accepts recvs msgs (endpoint.take accepts arrival) := by
      cases arrival with
      | post recv => exact origin.post (posts recv List.mem_cons_self)
      | arrive msg => exact origin.arrive (arrives msg List.mem_cons_self)
    exact ih later (fun recv member => posts recv (List.mem_cons_of_mem _ member))
      (fun msg member => arrives msg (List.mem_cons_of_mem _ member))

theorem matched_takeAll {pair : Recv × Msg} (member : pair ∈ endpoint.matched)
    (arrivals : List (Arrival Recv Msg)) : pair ∈ (endpoint.takeAll accepts arrivals).matched := by
  induction arrivals generalizing endpoint with
  | nil => exact member
  | cons arrival rest ih =>
    apply ih
    cases arrival with
    | post recv =>
      simp only [take]
      split
      · exact List.mem_cons_of_mem _ member
      · exact member
    | arrive msg =>
      simp only [take]
      split
      · exact List.mem_cons_of_mem _ member
      · exact member

theorem matched_first (accepted : accepts recv msg = true) (rest : List (Arrival Recv Msg)) :
    (recv, msg) ∈
      (empty.takeAll accepts (.post recv :: .arrive msg :: rest)).matched := by
  have both : ((empty.take accepts (.post recv)).take accepts (.arrive msg)).matched =
      [(recv, msg)] := by
    simp [take, empty, accepted]
  have here : (recv, msg) ∈
      ((empty.take accepts (.post recv)).take accepts (.arrive msg)).matched := by
    rw [both]
    exact List.mem_singleton_self _
  exact matched_takeAll here rest

end Endpoint

end Machine
