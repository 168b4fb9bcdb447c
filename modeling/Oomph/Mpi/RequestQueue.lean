import Oomph.Request

namespace Oomph.Mpi

/-! An `MPI_Request` is the number of the operation it stands for, or
`MPI_REQUEST_NULL`.  `Transport` is what MPI has told about an operation: nothing
yet, completed by `MPI_Test` or `MPI_Testsome`, completed inside the `MPI_Wait` of a
cancel that came too late, or cancelled.
-/

abbrev MpiRequest := Option Nat

inductive Transport
  | active
  | reported
  | waited
  | canceled
deriving DecidableEq, Repr

structure RequestState extends RequestStateBase where
  req : MpiRequest
  selfPtr : Bool
  index : Nat
deriving DecidableEq, Repr

abbrev Heap := Nat → RequestState

def Heap.setIndex (heap : Heap) (e index : Nat) : Heap :=
  Function.update heap e { heap e with index }

structure RequestQueue where
  queue : List Nat
  readyQueue : List Nat
  inProgress : Bool
deriving DecidableEq, Repr

def RequestQueue.empty : RequestQueue :=
  { queue := [], readyQueue := [], inProgress := false }

def RequestQueue.enqueue (reqs : RequestQueue) (e : Nat) : RequestQueue :=
  { reqs with queue := reqs.queue ++ [e] }

/-- The variables of the loop that follows `MPI_Testsome`. -/
structure Scan where
  heap : Heap
  queue : List Nat
  ready : List Nat
  k : Nat
  j : Nat

def Scan.visit (indices : List Nat) (scan : Scan) (i : Nat) : Scan :=
  match scan.queue[i]? with
  | none => scan
  | some e =>
    if indices[scan.k]? = some i then
      { scan with ready := scan.ready ++ [e], k := scan.k + 1 }
    else if scan.j < i then
      { scan with
        heap := scan.heap.setIndex e scan.j
        queue := scan.queue.set scan.j e
        j := scan.j + 1 }
    else { scan with j := scan.j + 1 }

/-- The loop over the queue with the reported positions in `indices`, the sentinel
`indices[outcount] = qs`, and the `erase` that drops the tail. -/
def compact (heap : Heap) (queue positions : List Nat) : Scan :=
  let scan := (List.range queue.length).foldl (Scan.visit (positions ++ [queue.length]))
    { heap, queue, ready := [], k := 0, j := 0 }
  { scan with queue := scan.queue.take (scan.queue.length - scan.ready.length) }

inductive Testsome
  | failed
  | done (positions : List Nat)
deriving DecidableEq, Repr

def activeAt (transport : Nat → Transport) (reqs : List MpiRequest) (position : Nat) : Bool :=
  match reqs[position]? with
  | some (some op) => transport op = .active
  | _ => false

/-- What the MPI standard lets `MPI_Testsome` report: positions of operations that are
not complete yet, never of null handles, here in increasing order. -/
def Reportable (transport : Nat → Transport) (reqs : List MpiRequest) (positions : List Nat) :
    Prop :=
  positions.Pairwise (· < ·) ∧ ∀ position ∈ positions, activeAt transport reqs position = true

instance (transport : Nat → Transport) (reqs : List MpiRequest) (positions : List Nat) :
    Decidable (Reportable transport reqs positions) :=
  inferInstanceAs (Decidable (_ ∧ _))

theorem activeAt_iff {transport : Nat → Transport} {reqs : List MpiRequest} {position : Nat} :
    activeAt transport reqs position = true ↔
      ∃ op, reqs[position]? = some (some op) ∧ transport op = .active := by
  unfold activeAt
  split
  · rename_i op found
    simp [found]
  · rename_i other
    simp only [Bool.false_eq_true, false_iff, not_exists, not_and]
    intro op found
    exact absurd found (other op)

end Oomph.Mpi
