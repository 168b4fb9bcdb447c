import Mathlib.Data.List.Basic
import Mathlib.Logic.Function.Basic

namespace Oomph.Libfabric

/-! Addresses are exchanged once per process, over the communicator of its first context, and
the controller that holds them is shared by all later contexts.  A rank of any context is
used as an index into that one address vector.
-/

variable {Process Address : Type} [Inhabited Address]

abbrev Comm (Process : Type) := List Process

/-- The entries are in the order of insertion, as in an `FI_AV_TABLE`. -/
abbrev AddressVector (Address : Type) := List Address

section Exchange

variable (here : Process → Address)

def sentBy (comm : Comm Process) (i : Nat) : Address :=
  (comm[i]?.map here).getD default

/-- The vector `localities` that rank 0 fills, with its own address first and then with one
receive for each other rank, and that it sends to all of them. -/
def exchangeLocalities (comm : Comm Process) : List Address :=
  (List.range' 1 (comm.length - 1)).foldl
    (fun localities i => localities.set i (sentBy here comm i))
    ((List.replicate comm.length default).set 0 (sentBy here comm 0))

def insertAddress (av : AddressVector Address) (address : Address) : AddressVector Address :=
  av ++ [address]

def exchangeAddresses (comm : Comm Process) : AddressVector Address :=
  (exchangeLocalities here comm).foldl insertAddress []

end Exchange

section Loops

variable {here : Process → Address} {comm : Comm Process}

omit [Inhabited Address] in
theorem foldl_set_getElem? (value : Nat → Address) (indices : List Nat) (vector : List Address)
    (j : Nat) :
    (indices.foldl (fun acc i => acc.set i (value i)) vector)[j]? =
      if j ∈ indices ∧ j < vector.length then some (value j) else vector[j]? := by
  induction indices generalizing vector with
  | nil => simp
  | cons i rest ih =>
    rw [List.foldl_cons, ih, List.length_set]
    by_cases later : j ∈ rest
    · by_cases inside : j < vector.length
      · simp [later, inside]
      · simp [inside]
    · by_cases same : j = i
      · subst j
        by_cases inside : i < vector.length
        · simp [later, inside]
        · simp [inside]
      · simp [later, same, List.getElem?_set_ne (Ne.symm same)]

theorem exchangeLocalities_eq : exchangeLocalities here comm = comm.map here := by
  apply List.ext_getElem?
  intro j
  have value : ∀ inside : j < comm.length, some (sentBy here comm j) = (comm.map here)[j]? := by
    intro inside
    simp [sentBy, inside]
  rw [exchangeLocalities, foldl_set_getElem?, List.length_set, List.length_replicate]
  by_cases inside : j < comm.length
  · by_cases first : j = 0
    · subst j
      have notLater : ¬ (0 ∈ List.range' 1 (comm.length - 1) ∧ 0 < comm.length) := by
        rw [List.mem_range'_1]
        omega
      rw [if_neg notLater, List.getElem?_set_self (by simpa using inside)]
      exact value inside
    · have later : j ∈ List.range' 1 (comm.length - 1) ∧ j < comm.length := by
        refine ⟨?_, inside⟩
        rw [List.mem_range'_1]
        omega
      rw [if_pos later]
      exact value inside
  · have outside : ¬ (j ∈ List.range' 1 (comm.length - 1) ∧ j < comm.length) := fun both =>
      inside both.2
    rw [if_neg outside, List.getElem?_eq_none (by simp; omega),
      List.getElem?_eq_none (by simp; omega)]

omit [Inhabited Address] in
theorem foldl_insertAddress (addresses : List Address) (av : AddressVector Address) :
    addresses.foldl insertAddress av = av ++ addresses := by
  induction addresses generalizing av with
  | nil => simp
  | cons address rest ih =>
    rw [List.foldl_cons, ih, insertAddress, List.append_assoc, List.singleton_append]

/-- After the exchange entry `i` is the address of the process with rank `i`. -/
theorem exchangeAddresses_eq : exchangeAddresses here comm = comm.map here := by
  rw [exchangeAddresses, foldl_insertAddress, List.nil_append, exchangeLocalities_eq]

end Loops

structure Context (Process Address : Type) where
  comm : Comm Process
  controller : AddressVector Address

structure Contexts (Process Address : Type) where
  controller : Option (AddressVector Address)
  contexts : List (Context Process Address)

namespace Contexts

variable (here : Process → Address)

def empty : Contexts Process Address := { controller := none, contexts := [] }

def initLibfabricController (all : Contexts Process Address) (comm : Comm Process) :
    AddressVector Address :=
  match all.controller with
  | some av => av
  | none => exchangeAddresses here comm

def createContext (all : Contexts Process Address) (comm : Comm Process) :
    Contexts Process Address :=
  let controller := all.initLibfabricController here comm
  { controller := some controller, contexts := all.contexts ++ [{ comm, controller }] }

def createContexts (comms : List (Comm Process)) : Contexts Process Address :=
  comms.foldl (createContext here) empty

end Contexts

/-- The endpoint that a send to a rank goes to: `fi_addr_t(dst)` is the index. -/
def Context.destination (context : Context Process Address) (dst : Nat) : Option Address :=
  context.controller[dst]?

namespace Contexts

variable {here : Process → Address}

theorem foldl_createContext (here : Process → Address) (av : AddressVector Address) (known : List (Context Process Address))
    (comms : List (Comm Process)) :
    (comms.foldl (createContext here) { controller := some av, contexts := known }).contexts =
      known ++ comms.map fun comm => { comm, controller := av } := by
  induction comms generalizing known with
  | nil => simp
  | cons comm rest ih =>
    rw [List.foldl_cons]
    refine (ih (known ++ [{ comm, controller := av }])).trans ?_
    rw [List.append_assoc, List.map_cons, List.singleton_append]

/-- Every context has the controller of the first. -/
theorem createContexts_eq (first : Comm Process) (rest : List (Comm Process)) :
    (createContexts here (first :: rest)).contexts =
      (first :: rest).map fun comm => { comm, controller := exchangeAddresses here first } := by
  have later := foldl_createContext here (exchangeAddresses here first)
    [{ comm := first, controller := exchangeAddresses here first }] rest
  rw [List.map_cons, ← List.singleton_append]
  exact later

end Contexts

/-- A send on a context reaches the process of that rank exactly when the communicator of
the first context has the same process at that rank. -/
theorem destination_correct_iff {here : Process → Address} (distinct : Function.Injective here)
    (first : Comm Process) (rest : List (Comm Process)) (context : Context Process Address)
    (created : context ∈ (Contexts.createContexts here (first :: rest)).contexts)
    (dst : Nat) (ranked : dst < context.comm.length) :
    context.destination dst = some (here context.comm[dst]) ↔
      first[dst]? = some context.comm[dst] := by
  rw [Contexts.createContexts_eq, List.mem_map] at created
  obtain ⟨comm, -, same⟩ := created
  subst context
  rw [Context.destination, exchangeAddresses_eq, List.getElem?_map, Option.map_eq_some_iff]
  constructor
  · intro found
    obtain ⟨other, atRank, address⟩ := found
    rw [atRank, distinct address]
  · intro atRank
    exact ⟨_, atRank, rfl⟩

/-- Three processes have a first context, and two of them a second one. -/
theorem destination_correct_in_first_context :
    Context.destination { comm := [0, 1, 2], controller := [10, 11, 12] } 1 = some 11 := by
  have distinct : Function.Injective fun process : Nat => process + 10 := fun _ _ same =>
    Nat.add_right_cancel same
  exact (destination_correct_iff distinct [0, 1, 2] [[1, 2]]
    { comm := [0, 1, 2], controller := [10, 11, 12] }
    (by rw [Contexts.createContexts_eq]; exact List.mem_cons_self) 1 (by decide)).mpr rfl

/-- On the second context a send to rank 0, which is process 1, goes to process 0. -/
theorem destination_of_second_context :
    ∃ context ∈ (Contexts.createContexts (fun process : Nat => process + 10)
        [[0, 1, 2], [1, 2]]).contexts,
      context.comm = [1, 2] ∧ context.destination 0 = some 10 ∧
        context.destination 0 ≠ some (1 + 10) := by
  refine ⟨{ comm := [1, 2], controller := [10, 11, 12] }, ?_, rfl, rfl, by decide⟩
  rw [Contexts.createContexts_eq]
  exact List.mem_cons_of_mem _ List.mem_cons_self

end Oomph.Libfabric
