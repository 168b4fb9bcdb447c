import Oomph.Machine.Memory
import Oomph.Machine.Run
import Mathlib.Algebra.Order.BigOperators.Group.Finset
import Mathlib.Data.Finset.Max

namespace Oomph.Ucx.AddressDb

open Machine

/-! Every rank calls `address_db_mpi::init` with the address of its worker.  One rank after the
other is the root of two broadcasts, of the length of its address and of its bytes.  The
ranks move at their own pace, and the broadcasts of a communicator are matched in the order
in which each rank enters them.
-/

abbrev Bytes := List UInt8

/-- The size of the communicator and the address that each rank passes to `init`. -/
structure Job where
  size : Nat
  addr : Nat → Bytes

/-- The conversion of a `std::size_t` to the `int` that `MPI_Bcast` takes. -/
def toCount (size : Nat) : Int32 := Int32.ofNat size

inductive Content
  | size (value : Nat)
  | data (bytes : Bytes)
deriving DecidableEq, Repr

/-- A call of `MPI_Bcast`; only that of the root has a content. -/
structure Bcast where
  root : Nat
  count : Int32
  content : Option Content
deriving DecidableEq, Repr

/-- Where a rank is in `init`; `entered` tells whether it is inside `MPI_Bcast`. -/
inductive Location
  | outside
  | size (r : Nat) (entered : Bool)
  | data (r : Nat) (entered : Bool)
  | done
  | threw
  | undefined
deriving DecidableEq, Repr

structure Rank where
  location : Location
  value : Bytes
  addressMap : Int → Option Bytes
  size : Nat
  addr : Bytes
  calls : List Bcast

abbrev State := Nat → Rank

def Rank.initial : Rank where
  location := .outside
  value := []
  addressMap := fun _ => none
  size := 0
  addr := []
  calls := []

def State.initial : State := fun _ => .initial

def Rank.find (rank : Rank) (k : Int) : Except String Bytes :=
  match rank.addressMap k with
  | some address => .ok address
  | none => .error "Cound not find peer address in the MPI address xdatabase."

namespace Rank

def round (job : Job) (r : Nat) : Location :=
  if r < job.size then .size r false else .done

@[simps -fullyApplied]
def start (job : Job) (q : Nat) (rank : Rank) : Rank :=
  { rank with
    value := job.addr q
    addressMap := Function.update rank.addressMap q (some (job.addr q))
    location := round job 0 }

@[simps -fullyApplied]
def enter (rank : Rank) (call : Bcast) (location : Location) : Rank :=
  { rank with location, calls := rank.calls ++ [call] }

@[simps -fullyApplied]
def moveTo (rank : Rank) (location : Location) : Rank :=
  { rank with location }

@[simps -fullyApplied]
def allocate (rank : Rank) (r size : Nat) : Rank :=
  { rank with size, addr := List.replicate size 0, location := .data r false }

@[simps -fullyApplied]
def store (rank : Rank) (job : Job) (r : Nat) (bytes : Bytes) : Rank :=
  { rank with
    addr := write rank.addr 0 bytes
    addressMap := Function.update rank.addressMap r (some (write rank.addr 0 bytes))
    location := round job (r + 1) }

def sizeCall (q r : Nat) (rank : Rank) : Bcast where
  root := r
  count := 8
  content := if r = q then some (.size rank.value.length) else none

def dataCount (q r : Nat) (rank : Rank) : Int32 :=
  toCount (if r = q then rank.value.length else rank.size)

def dataCall (q r : Nat) (rank : Rank) : Bcast where
  root := r
  count := rank.dataCount q r
  content :=
    if r = q then some (.data (rank.value.take (rank.dataCount q r).toNatClampNeg)) else none

/-- What a rank that is not the root gets out of a broadcast of which both have entered their
call.  Nothing is known when the calls do not match. -/
def take (job : Job) (rank : Rank) (own other : Bcast) : Rank :=
  if own.root = other.root ∧ own.count = other.count then
    match rank.location, other.content with
    | .size r true, some (.size size) => rank.allocate r size
    | .data r true, some (.data bytes) => rank.store job r bytes
    | _, _ => rank.moveTo .undefined
  else rank.moveTo .undefined

end Rank

inductive Action
  | start (q : Nat)
  | enter (q : Nat)
  | leave (q : Nat)
deriving DecidableEq, Repr

/-- A rank enters its next broadcast; MPI refuses a negative count, and the check of its
result throws. -/
def enterNext (q : Nat) (rank : Rank) : Option Rank :=
  match rank.location with
  | .size r false => some (rank.enter (rank.sizeCall q r) (.size r true))
  | .data r false =>
    if rank.dataCount q r < 0 then some (rank.moveTo .threw)
    else some (rank.enter (rank.dataCall q r) (.data r true))
  | _ => none

def waitFor (job : Job) (s : State) (rank : Rank) (r : Nat) : Option Rank :=
  match rank.calls.getLast?, (s r).calls[rank.calls.length - 1]? with
  | some own, some other => some (rank.take job own other)
  | _, _ => none

def leaveCurrent (job : Job) (s : State) (q : Nat) (rank : Rank) : Option Rank :=
  match rank.location with
  | .size r true =>
    if r = q then some (rank.moveTo (.data r false)) else waitFor job s rank r
  | .data r true =>
    if r = q then some (rank.moveTo (Rank.round job (r + 1))) else waitFor job s rank r
  | _ => none

def moveRank (job : Job) (s : State) : Action → Option Rank
  | .start q => if (s q).location = .outside then some ((s q).start job q) else none
  | .enter q => enterNext q (s q)
  | .leave q => leaveCurrent job s q (s q)

def Action.rank : Action → Nat
  | .start q => q
  | .enter q => q
  | .leave q => q

def step (job : Job) (s : State) (action : Action) : Option State :=
  if action.rank < job.size then
    (moveRank job s action).map (Function.update s action.rank)
  else none

abbrev Reachable (job : Job) (s : State) : Prop :=
  Reaches (step job) (fun _ _ => True) State.initial s

namespace Job

variable (job : Job)

def count (r : Nat) : Int32 := toCount (job.addr r).length

def call (q k : Nat) : Bcast :=
  if k % 2 = 0 then
    { root := k / 2
      count := 8
      content := if k / 2 = q then some (.size (job.addr q).length) else none }
  else
    { root := k / 2
      count := job.count (k / 2)
      content :=
        if k / 2 = q then some (.data ((job.addr q).take (job.count q).toNatClampNeg)) else none }

def calls (q n : Nat) : List Bcast := (List.range n).map (job.call q)

/-- What arrives of the address of rank `r`: the bytes that the count covers. -/
def received (r : Nat) : Bytes :=
  write (List.replicate (job.addr r).length 0) 0 ((job.addr r).take (job.count r).toNatClampNeg)

/-- The map of rank `q` when it has finished the rounds before `r`. -/
def mapBefore (q r : Nat) : Int → Option Bytes := fun key =>
  if key = q then some (job.addr q)
  else if 0 ≤ key ∧ key < r then some (job.received key.toNat)
  else none

def Doing (q : Nat) (rank : Rank) : Prop :=
  match rank.location with
  | .outside => rank.addressMap = (fun _ => none) ∧ rank.calls = []
  | .size r entered =>
    r < job.size ∧ rank.value = job.addr q ∧ rank.addressMap = job.mapBefore q r ∧
      rank.calls = job.calls q (2 * r + entered.toNat)
  | .data r entered =>
    r < job.size ∧ rank.value = job.addr q ∧ rank.addressMap = job.mapBefore q r ∧
      rank.calls = job.calls q (2 * r + 1 + entered.toNat) ∧
      (r ≠ q → rank.size = (job.addr r).length ∧
        rank.addr = List.replicate (job.addr r).length 0)
  | .done => rank.addressMap = job.mapBefore q job.size ∧ rank.calls = job.calls q (2 * job.size)
  | .threw => False
  | .undefined => False

end Job

variable {job : Job} {q r : Nat} {rank : Rank}

theorem calls_succ (q n : Nat) : job.calls q (n + 1) = job.calls q n ++ [job.call q n] := by
  simp [Job.calls, List.range_succ]

theorem call_size (q r : Nat) :
    job.call q (2 * r) =
      { root := r
        count := 8
        content := if r = q then some (.size (job.addr q).length) else none } := by
  have half : 2 * r / 2 = r := by omega
  rw [Job.call, if_pos (by omega), half]

theorem call_data (q r : Nat) :
    job.call q (2 * r + 1) =
      { root := r
        count := job.count r
        content :=
          if r = q then some (.data ((job.addr q).take (job.count q).toNatClampNeg)) else none } := by
  have half : (2 * r + 1) / 2 = r := by omega
  rw [Job.call, if_neg (by omega), half]

theorem mapBefore_zero (q : Nat) :
    job.mapBefore q 0 = Function.update (fun _ => none) (q : Int) (some (job.addr q)) := by
  funext key
  by_cases own : key = q
  · rw [Job.mapBefore, if_pos own, own, Function.update_self]
  · rw [Job.mapBefore, if_neg own, Function.update_of_ne own, if_neg (by omega)]

theorem mapBefore_own (q : Nat) : job.mapBefore q (q + 1) = job.mapBefore q q := by
  funext key
  by_cases own : key = q
  · rw [Job.mapBefore, Job.mapBefore, if_pos own, if_pos own]
  · have same : (0 ≤ key ∧ key < (q + 1 : Nat)) = (0 ≤ key ∧ key < q) := propext (by omega)
    rw [Job.mapBefore, Job.mapBefore, if_neg own, if_neg own]
    simp only [same]

theorem mapBefore_other (other : r ≠ q) :
    job.mapBefore q (r + 1) =
      Function.update (job.mapBefore q r) (r : Int) (some (job.received r)) := by
  funext key
  by_cases here : key = r
  · subst here
    rw [Function.update_self, Job.mapBefore, if_neg (by omega), if_pos (by omega), Int.toNat_natCast]
  · have same : (0 ≤ key ∧ key < (r + 1 : Nat)) = (0 ≤ key ∧ key < r) := propext (by omega)
    rw [Function.update_of_ne here, Job.mapBefore, Job.mapBefore]
    simp only [same]

theorem Job.Doing.round {n : Nat} (begun : n ≤ job.size) (moved : Rank)
    (location : moved.location = Rank.round job n) (value : moved.value = job.addr q)
    (map : moved.addressMap = job.mapBefore q n) (calls : moved.calls = job.calls q (2 * n)) :
    job.Doing q moved := by
  by_cases more : n < job.size
  · rw [Rank.round, if_pos more] at location
    simp only [Job.Doing, location]
    exact ⟨more, value, map, calls⟩
  · have last : n = job.size := by omega
    rw [Rank.round, if_neg more] at location
    simp only [Job.Doing, location]
    exact ⟨last ▸ map, last ▸ calls⟩

theorem Job.Doing.start (doing : job.Doing q rank) (outside : rank.location = .outside) :
    job.Doing q (rank.start job q) := by
  simp only [Job.Doing, outside] at doing
  refine .round (Nat.zero_le _) _ rfl rfl ?_ doing.2
  rw [Rank.start_addressMap, doing.1, mapBefore_zero]

theorem Job.Doing.enter (countable : ∀ r < job.size, 0 ≤ job.count r) (doing : job.Doing q rank)
    {moved : Rank} (entered : enterNext q rank = some moved) : job.Doing q moved := by
  unfold enterNext at entered
  split at entered
  · rename_i r location
    simp only [Job.Doing, location, Bool.toNat_false, Nat.add_zero] at doing
    cases entered
    obtain ⟨inside, value, map, calls⟩ := doing
    refine ⟨inside, value, map, ?_⟩
    rw [Rank.enter_calls, calls, Bool.toNat_true, calls_succ, call_size, Rank.sizeCall, value]
  · rename_i r location
    simp only [Job.Doing, location, Bool.toNat_false, Nat.add_zero] at doing
    obtain ⟨inside, value, map, calls, allocated⟩ := doing
    have count : rank.dataCount q r = job.count r := by
      by_cases own : r = q
      · rw [Rank.dataCount, if_pos own, value, own, Job.count]
      · rw [Rank.dataCount, if_neg own, (allocated own).1, Job.count]
    rw [count, if_neg (by simpa using countable r inside)] at entered
    cases entered
    refine ⟨inside, value, map, ?_, allocated⟩
    rw [Rank.enter_calls, calls, Bool.toNat_true, calls_succ q (2 * r + 1), call_data,
      Rank.dataCall, value, count]
    by_cases own : r = q
    · simp [own]
    · simp [own]
  · cases entered

def Location.entered (job : Job) : Location → Nat
  | .outside => 0
  | .size r entered => 2 * r + entered.toNat
  | .data r entered => 2 * r + 1 + entered.toNat
  | .done => 2 * job.size
  | .threw => 0
  | .undefined => 0

theorem Job.Doing.calls (doing : job.Doing q rank) :
    rank.calls = job.calls q (rank.location.entered job) := by
  unfold Job.Doing at doing
  split at doing
  · rename_i location
    rw [location]
    exact doing.2
  · rename_i location
    rw [location]
    exact doing.2.2.2
  · rename_i location
    rw [location]
    exact doing.2.2.2.1
  · rename_i location
    rw [location]
    exact doing.2
  · exact doing.elim
  · exact doing.elim

theorem calls_getElem? (n k : Nat) :
    (job.calls r n)[k]? = if k < n then some (job.call r k) else none := by
  rw [Job.calls, List.getElem?_map]
  by_cases inside : k < n
  · simp [inside]
  · simp [inside]

theorem waitFor_eq {s : State} {k : Nat} (root : job.Doing r (s r))
    (calls : rank.calls = job.calls q (k + 1)) :
    waitFor job s rank r =
      if k < (s r).location.entered job then some (rank.take job (job.call q k) (job.call r k))
      else none := by
  have last : rank.calls.getLast? = some (job.call q k) := by
    rw [calls, calls_succ, List.getLast?_concat]
  have number : rank.calls.length - 1 = k := by
    rw [calls, Job.calls, List.length_map, List.length_range, Nat.add_sub_cancel]
  rw [waitFor, last, number, root.calls, calls_getElem?]
  by_cases entered : k < (s r).location.entered job
  · simp only [if_pos entered]
  · simp only [if_neg entered]

inductive Leaves (job : Job) (q : Nat) (rank : Rank) : Rank → Prop
  | ownSize (location : rank.location = .size q true) :
      Leaves job q rank (rank.moveTo (.data q false))
  | size (r : Nat) (other : r ≠ q) (location : rank.location = .size r true) :
      Leaves job q rank (rank.allocate r (job.addr r).length)
  | ownData (location : rank.location = .data q true) :
      Leaves job q rank (rank.moveTo (Rank.round job (q + 1)))
  | data (r : Nat) (other : r ≠ q) (location : rank.location = .data r true) :
      Leaves job q rank
        (rank.store job r ((job.addr r).take (job.count r).toNatClampNeg))

theorem Job.Doing.inside_size {entered : Bool} (doing : job.Doing q rank)
    (location : rank.location = .size r entered) : r < job.size := by
  simp only [Job.Doing, location] at doing
  exact doing.1

theorem Job.Doing.inside_data {entered : Bool} (doing : job.Doing q rank)
    (location : rank.location = .data r entered) : r < job.size := by
  simp only [Job.Doing, location] at doing
  exact doing.1

theorem Job.Doing.leaves {s : State} (others : ∀ p < job.size, job.Doing p (s p))
    (doing : job.Doing q rank) {moved : Rank} (left : leaveCurrent job s q rank = some moved) :
    Leaves job q rank moved := by
  have calls := doing.calls
  unfold leaveCurrent at left
  split at left
  · rename_i r location
    rw [location] at calls
    by_cases own : r = q
    · subst own
      rw [if_pos rfl] at left
      cases left
      exact .ownSize location
    · rw [if_neg own, waitFor_eq (others r (doing.inside_size location)) calls,
        Option.ite_none_right_eq_some] at left
      obtain ⟨_, taken⟩ := left
      cases taken
      rw [call_size, call_size, Rank.take, if_pos ⟨rfl, rfl⟩, location, if_pos rfl]
      exact .size r own location
  · rename_i r location
    rw [location] at calls
    by_cases own : r = q
    · subst own
      rw [if_pos rfl] at left
      cases left
      exact .ownData location
    · rw [if_neg own, waitFor_eq (others r (doing.inside_data location)) calls,
        Option.ite_none_right_eq_some] at left
      obtain ⟨_, taken⟩ := left
      cases taken
      rw [call_data, call_data, Rank.take, if_pos ⟨rfl, rfl⟩, location, if_pos rfl]
      exact .data r own location
  · cases left

theorem Job.Doing.leave (doing : job.Doing q rank) {moved : Rank}
    (left : Leaves job q rank moved) : job.Doing q moved := by
  cases left with
  | ownSize location =>
    simp only [Job.Doing, location, Bool.toNat_true] at doing
    obtain ⟨inside, value, map, calls⟩ := doing
    exact ⟨inside, value, map, calls, fun other => absurd rfl other⟩
  | size r other location =>
    simp only [Job.Doing, location, Bool.toNat_true] at doing
    obtain ⟨inside, value, map, calls⟩ := doing
    exact ⟨inside, value, map, calls, fun _ => ⟨rfl, rfl⟩⟩
  | ownData location =>
    simp only [Job.Doing, location, Bool.toNat_true] at doing
    obtain ⟨inside, value, map, calls, _⟩ := doing
    exact .round inside _ rfl value (map.trans (mapBefore_own q).symm) calls
  | data r other location =>
    simp only [Job.Doing, location, Bool.toNat_true] at doing
    obtain ⟨inside, value, map, calls, allocated⟩ := doing
    refine .round inside _ rfl value ?_ calls
    rw [Rank.store_addressMap, map, (allocated other).2, mapBefore_other other, Job.received]

def Job.Running (job : Job) (s : State) : Prop :=
  ∀ q < job.size, job.Doing q (s q)

section Runs

variable {s t : State} {action : Action}

theorem step_eq_some (taken : step job s action = some t) :
    action.rank < job.size ∧
      ∃ moved, moveRank job s action = some moved ∧ t = Function.update s action.rank moved := by
  rw [step, Option.ite_none_right_eq_some] at taken
  obtain ⟨inside, mapped⟩ := taken
  obtain ⟨moved, made, rfl⟩ := Option.map_eq_some_iff.mp mapped
  exact ⟨inside, moved, made, rfl⟩

theorem moveRank_doing (countable : ∀ r < job.size, 0 ≤ job.count r) (running : job.Running s)
    (inside : action.rank < job.size) {moved : Rank} (made : moveRank job s action = some moved) :
    job.Doing action.rank moved := by
  cases action with
  | start q =>
    rw [moveRank, Option.ite_none_right_eq_some] at made
    obtain ⟨outside, made⟩ := made
    cases made
    exact (running q inside).start outside
  | enter q => exact (running q inside).enter countable made
  | leave q => exact (running q inside).leave ((running q inside).leaves running made)

theorem Job.Running.step (countable : ∀ r < job.size, 0 ≤ job.count r) (running : job.Running s)
    (taken : step job s action = some t) : job.Running t := by
  obtain ⟨inside, moved, made, rfl⟩ := step_eq_some taken
  intro q member
  by_cases here : q = action.rank
  · subst here
    rw [Function.update_self]
    exact moveRank_doing countable running inside made
  · rw [Function.update_of_ne here]
    exact running q member

theorem Job.Running.initial : job.Running State.initial :=
  fun _ _ => ⟨rfl, rfl⟩

theorem running_of_reachable (countable : ∀ r < job.size, 0 ≤ job.count r)
    (reached : Reachable job s) : job.Running s :=
  reached.invariant job.Running .initial fun _ _ _ running _ taken =>
    running.step countable taken

def Location.remaining (job : Job) : Location → Nat
  | .outside => 4 * job.size + 1
  | .size r entered => 4 * (job.size - r) - entered.toNat
  | .data r entered => 4 * (job.size - r) - 2 - entered.toNat
  | .done => 0
  | .threw => 0
  | .undefined => 0

def State.remaining (job : Job) (s : State) : Nat :=
  ∑ q ∈ Finset.range job.size, (s q).location.remaining job

theorem remaining_round (job : Job) (r : Nat) :
    (Rank.round job r).remaining job ≤ 4 * (job.size - r) := by
  by_cases more : r < job.size
  · rw [Rank.round, if_pos more, Location.remaining, Bool.toNat_false, Nat.sub_zero]
  · rw [Rank.round, if_neg more, Location.remaining]
    exact Nat.zero_le _

theorem remaining_start (job : Job) (q : Nat) (rank : Rank) :
    (rank.start job q).location.remaining job < 4 * job.size + 1 := by
  have bound := remaining_round job 0
  rw [Rank.start_location]
  omega

theorem remaining_enter {moved : Rank} (doing : job.Doing q rank)
    (entered : enterNext q rank = some moved) :
    moved.location.remaining job < rank.location.remaining job := by
  unfold enterNext at entered
  split at entered
  · rename_i r location
    have inside := doing.inside_size location
    cases entered
    simp only [location, Rank.enter_location, Location.remaining, Bool.toNat_true,
      Bool.toNat_false]
    omega
  · rename_i r location
    have inside := doing.inside_data location
    rw [location]
    split at entered
    · cases entered
      simp only [Rank.moveTo_location, Location.remaining, Bool.toNat_false]
      omega
    · cases entered
      simp only [Rank.enter_location, Location.remaining, Bool.toNat_true, Bool.toNat_false]
      omega
  · cases entered

theorem remaining_leave {moved : Rank} (doing : job.Doing q rank)
    (left : Leaves job q rank moved) :
    moved.location.remaining job < rank.location.remaining job := by
  cases left with
  | ownSize location =>
    have inside := doing.inside_size location
    simp only [location, Rank.moveTo_location, Location.remaining, Bool.toNat_true,
      Bool.toNat_false]
    omega
  | size r other location =>
    have inside := doing.inside_size location
    simp only [location, Rank.allocate_location, Location.remaining, Bool.toNat_true,
      Bool.toNat_false]
    omega
  | ownData location =>
    have inside := doing.inside_data location
    have bound := remaining_round job (q + 1)
    have before : (Location.data q true).remaining job = 4 * (job.size - q) - 2 - 1 := rfl
    rw [location, Rank.moveTo_location, before]
    omega
  | data r other location =>
    have inside := doing.inside_data location
    have bound := remaining_round job (r + 1)
    have before : (Location.data r true).remaining job = 4 * (job.size - r) - 2 - 1 := rfl
    rw [location, Rank.store_location, before]
    omega

theorem moveRank_remaining (running : job.Running s) (inside : action.rank < job.size)
    {moved : Rank} (made : moveRank job s action = some moved) :
    moved.location.remaining job < (s action.rank).location.remaining job := by
  cases action with
  | start q =>
    rw [moveRank, Option.ite_none_right_eq_some] at made
    obtain ⟨outside, made⟩ := made
    cases made
    simp only [Action.rank, outside]
    exact remaining_start job q (s q)
  | enter q => exact remaining_enter (running q inside) made
  | leave q => exact remaining_leave (running q inside) ((running q inside).leaves running made)

theorem remaining_decreases (running : job.Running s) (taken : step job s action = some t) :
    t.remaining job < s.remaining job := by
  obtain ⟨inside, moved, made, rfl⟩ := step_eq_some taken
  have less := moveRank_remaining running inside made
  refine Finset.sum_lt_sum (fun q _ => ?_) ⟨action.rank, Finset.mem_range.mpr inside, ?_⟩
  · by_cases here : q = action.rank
    · subst here
      rw [Function.update_self]
      exact Nat.le_of_lt less
    · rw [Function.update_of_ne here]
  · rw [Function.update_self]
    exact less

theorem remaining_initial (job : Job) :
    State.initial.remaining job = job.size * (4 * job.size + 1) := by
  simp [State.remaining, State.initial, Rank.initial, Location.remaining]

theorem Job.Doing.length_calls (doing : job.Doing q rank) :
    rank.calls.length = rank.location.entered job := by
  rw [doing.calls, Job.calls, List.length_map, List.length_range]

/-- Some rank can move, and where it leaves a broadcast every rank has entered it: nothing
depends on whether `MPI_Bcast` waits for the other ranks. -/
def Job.Proceeds (job : Job) (s : State) : Prop :=
  ∃ action t, step job s action = some t ∧
    ∀ q, action = .leave q → ∀ p < job.size, (s q).calls.length ≤ (s p).calls.length

theorem step_of_moveRank {moved : Rank} (made : moveRank job s action = some moved)
    (inside : action.rank < job.size) :
    step job s action = some (Function.update s action.rank moved) := by
  rw [step, if_pos inside, made]
  rfl

def Location.idle : Location → Bool
  | .outside => true
  | .size _ entered => !entered
  | .data _ entered => !entered
  | _ => false

theorem proceeds_of_idle (inside : q < job.size) (idle : (s q).location.idle = true) :
    job.Proceeds s := by
  cases location : (s q).location with
  | outside =>
    have made : moveRank job s (.start q) = some ((s q).start job q) := if_pos location
    exact ⟨_, _, step_of_moveRank made inside, nofun⟩
  | size r entered =>
    rw [location, Location.idle, Bool.not_eq_true'] at idle
    subst idle
    have made : moveRank job s (.enter q) =
        some ((s q).enter ((s q).sizeCall q r) (.size r true)) := by
      rw [moveRank, enterNext, location]
    exact ⟨_, _, step_of_moveRank made inside, nofun⟩
  | data r entered =>
    rw [location, Location.idle, Bool.not_eq_true'] at idle
    subst idle
    have made : ∃ moved, moveRank job s (.enter q) = some moved := by
      rw [moveRank, enterNext, location]
      by_cases negative : (s q).dataCount q r < 0
      · exact ⟨_, if_pos negative⟩
      · exact ⟨_, if_neg negative⟩
    obtain ⟨moved, made⟩ := made
    exact ⟨_, _, step_of_moveRank made inside, nofun⟩
  | done => simp [location, Location.idle] at idle
  | threw => simp [location, Location.idle] at idle
  | undefined => simp [location, Location.idle] at idle

/-- A rank inside a broadcast that its root has entered can leave it. -/
theorem exists_leave (running : job.Running s) (inside : q < job.size)
    (busy : (s q).location.idle = false) (unfinished : (s q).location ≠ .done)
    (least : ∀ p < job.size, (s q).calls.length ≤ (s p).calls.length) :
    ∃ moved, moveRank job s (.leave q) = some moved := by
  have doing := running q inside
  have calls := doing.calls
  have entered : (s q).calls.length = (s q).location.entered job := doing.length_calls
  cases location : (s q).location with
  | outside => simp [location, Location.idle] at busy
  | size r inCall =>
    rw [location, Location.idle, Bool.not_eq_false'] at busy
    subst busy
    rw [location] at calls entered
    simp only [moveRank, leaveCurrent, location]
    by_cases own : r = q
    · exact ⟨_, if_pos own⟩
    · have root := running r (doing.inside_size location)
      have ahead := least r (doing.inside_size location)
      rw [entered, root.length_calls] at ahead
      exact ⟨_, (if_neg own).trans ((waitFor_eq root calls).trans (if_pos ahead))⟩
  | data r inCall =>
    rw [location, Location.idle, Bool.not_eq_false'] at busy
    subst busy
    rw [location] at calls entered
    simp only [moveRank, leaveCurrent, location]
    by_cases own : r = q
    · exact ⟨_, if_pos own⟩
    · have root := running r (doing.inside_data location)
      have ahead := least r (doing.inside_data location)
      rw [entered, root.length_calls] at ahead
      exact ⟨_, (if_neg own).trans ((waitFor_eq root calls).trans (if_pos ahead))⟩
  | done => exact absurd location unfinished
  | threw => simp only [Job.Doing, location] at doing
  | undefined => simp only [Job.Doing, location] at doing

theorem Job.Doing.entered_le (doing : job.Doing q rank) :
    rank.location.entered job ≤ 2 * job.size := by
  cases location : rank.location with
  | size r inCall =>
    have inside := doing.inside_size location
    have one := Bool.toNat_le inCall
    rw [Location.entered]
    omega
  | data r inCall =>
    have inside := doing.inside_data location
    have one := Bool.toNat_le inCall
    rw [Location.entered]
    omega
  | _ => simp [Location.entered]

theorem Job.Running.proceeds (running : job.Running s) (inside : q < job.size)
    (unfinished : (s q).location ≠ .done) : job.Proceeds s := by
  by_cases idle : ∃ p < job.size, (s p).location.idle = true
  · obtain ⟨p, member, idle⟩ := idle
    exact proceeds_of_idle member idle
  · -- all ranks are inside a broadcast or done; the one that is furthest behind can leave
    let behind := (Finset.range job.size).filter fun p => (s p).location ≠ .done
    have some_behind : behind.Nonempty := ⟨q, by simp [behind, inside, unfinished]⟩
    obtain ⟨p, member, least⟩ := behind.exists_min_image (fun p => (s p).calls.length) some_behind
    obtain ⟨member, unfinished⟩ := Finset.mem_filter.mp member
    have member := Finset.mem_range.mp member
    have busy : (s p).location.idle = false := by
      cases flag : (s p).location.idle with
      | false => rfl
      | true => exact absurd ⟨p, member, flag⟩ idle
    have ahead : ∀ p' < job.size, (s p).calls.length ≤ (s p').calls.length := by
      intro p' member'
      by_cases ended : (s p').location = .done
      · rw [(running p member).length_calls, (running p' member').length_calls, ended]
        exact (running p member).entered_le
      · exact least p' (Finset.mem_filter.mpr ⟨Finset.mem_range.mpr member', ended⟩)
    obtain ⟨moved, made⟩ := exists_leave running member busy unfinished ahead
    refine ⟨_, _, step_of_moveRank made member, ?_⟩
    intro q' same
    cases same
    exact ahead

end Runs

def Job.schedule (job : Job) : List (Nat × Int32) :=
  (List.range job.size).flatMap fun r => [(r, 8), (r, job.count r)]

def Bcast.shape (call : Bcast) : Nat × Int32 := (call.root, call.count)

theorem shape_calls (job : Job) (q : Nat) :
    (job.calls q (2 * job.size)).map Bcast.shape = job.schedule := by
  rw [Job.schedule]
  induction job.size with
  | zero => rfl
  | succ n ih =>
    rw [Nat.mul_succ, calls_succ q (2 * n + 1), calls_succ, List.map_append, List.map_append, ih,
      call_size, call_data, List.range_succ, List.flatMap_append, List.append_assoc]
    rfl

theorem calls_isPrefix {n m : Nat} (less : n ≤ m) : job.calls q n <+: job.calls q m := by
  have cut : job.calls q n = (job.calls q m).take n := by
    rw [Job.calls, Job.calls, ← List.map_take, List.take_range, Nat.min_eq_left less]
  rw [cut]
  exact List.take_prefix n _

/-- What holds at every moment: the ranks issue the same broadcasts, none has failed, a rank
that is done finds every address and no other key, and until all are done some rank can
move. -/
structure Job.Exchanged (job : Job) (s : State) : Prop where
  issued : ∀ q < job.size, (s q).calls.map Bcast.shape <+: job.schedule
  complete : ∀ q < job.size, (s q).location = .done →
    (s q).calls.map Bcast.shape = job.schedule
  defined : ∀ q < job.size, (s q).location ≠ .threw ∧ (s q).location ≠ .undefined
  found : ∀ q < job.size, (s q).location = .done → ∀ r < job.size,
    (s q).find r = .ok (job.addr r)
  missing : ∀ q < job.size, (s q).location = .done → ∀ k : Int, ¬ (0 ≤ k ∧ k < job.size) →
    (s q).find k = .error "Cound not find peer address in the MPI address xdatabase."
  proceeds : (∀ q < job.size, (s q).location = .done) ∨ job.Proceeds s

section Short

variable {s : State}

theorem count_nonneg (short : ∀ r < job.size, (job.addr r).length < 2 ^ 31) :
    ∀ r < job.size, 0 ≤ job.count r := by
  intro r inside
  rw [Int32.le_iff_toInt_le, Job.count, toCount, Int32.toInt_ofNat_of_lt (short r inside)]
  exact Int.natCast_nonneg _

theorem received_eq (short : (job.addr r).length < 2 ^ 31) : job.received r = job.addr r := by
  rw [Job.received, Job.count, toCount, Int32.toNatClampNeg_ofNat_of_lt short, List.take_length,
    write_replicate_zero, Nat.sub_self, List.replicate_zero, List.append_nil]

/-- The keys of the map are the ranks. -/
theorem Job.Doing.find_eq (doing : job.Doing q rank) (ended : rank.location = .done)
    (inside : q < job.size) (k : Int) :
    rank.find k =
      if 0 ≤ k ∧ k < job.size then
        .ok (if k = q then job.addr q else job.received k.toNat)
      else .error "Cound not find peer address in the MPI address xdatabase." := by
  simp only [Job.Doing, ended] at doing
  rw [Rank.find, doing.1, Job.mapBefore]
  by_cases own : k = q
  · subst own
    rw [if_pos rfl, if_pos (by omega), if_pos rfl]
  · rw [if_neg own, if_neg own]
    by_cases ranked : 0 ≤ k ∧ k < job.size
    · rw [if_pos ranked, if_pos ranked]
    · rw [if_neg ranked, if_neg ranked]

theorem Job.Running.exchanged (short : ∀ r < job.size, (job.addr r).length < 2 ^ 31)
    (running : job.Running s) : job.Exchanged s where
  issued q inside := by
    rw [(running q inside).calls, ← shape_calls job q]
    exact (calls_isPrefix (running q inside).entered_le).map _
  complete q inside ended := by
    rw [(running q inside).calls, ended]
    exact shape_calls job q
  defined q inside := by
    have doing := running q inside
    constructor
    · intro location
      simp only [Job.Doing, location] at doing
    · intro location
      simp only [Job.Doing, location] at doing
  found q inside ended r ranked := by
    rw [(running q inside).find_eq ended inside, if_pos (by omega)]
    by_cases own : (r : Int) = q
    · rw [if_pos own, Int.ofNat_inj.mp own]
    · rw [if_neg own, Int.toNat_natCast, received_eq (short r ranked)]
  missing q inside ended k outside := by
    rw [(running q inside).find_eq ended inside, if_neg outside]
  proceeds := by
    by_cases all : ∀ q < job.size, (s q).location = .done
    · exact .inl all
    · simp only [not_forall] at all
      obtain ⟨q, inside, unfinished⟩ := all
      exact .inr (running.proceeds inside unfinished)

end Short

/-- With addresses whose length fits an `int`, every run of the ranks is lawful and takes a
bounded number of steps. -/
theorem addresses_exchanged (job : Job) (short : ∀ r < job.size, (job.addr r).length < 2 ^ 31) :
    (∀ s, Reachable job s → job.Exchanged s) ∧
      ∀ actions s, run (step job) (fun _ _ => True) State.initial actions = some s →
        actions.length ≤ job.size * (4 * job.size + 1) := by
  have countable := count_nonneg short
  constructor
  · intro s reached
    exact (running_of_reachable countable reached).exchanged short
  · intro actions s ran
    have bounded := length_le_of_run (State.remaining job)
      (fun _ _ _ running _ taken => Job.Running.step countable running taken)
      (fun _ _ _ running _ taken => remaining_decreases running taken) Job.Running.initial ran
    rw [remaining_initial] at bounded
    omega

def twoRanks : Job where
  size := 2
  addr r := if r = 0 then [7, 1, 4] else []

theorem addresses_exchanged_two :
    ∃ s, Reachable twoRanks s ∧ twoRanks.Exchanged s ∧
      (s 0).location = .done ∧ (s 1).location = .done ∧ (s 1).find 0 = .ok [7, 1, 4] := by
  obtain ⟨s, reached, first, second, received⟩ := exists_of_run (step twoRanks) (fun _ _ => True)
    State.initial
    [.start 0, .enter 0, .leave 0, .enter 0, .leave 0, .enter 0, .start 1, .enter 1, .leave 1,
      .enter 1, .leave 1, .enter 1, .leave 1, .leave 0, .enter 0, .enter 1, .leave 1, .leave 0]
    (fun s => (s 0).location = .done ∧ (s 1).location = .done ∧ (s 1).addressMap 0 = some [7, 1, 4])
    (by decide +kernel)
  have short : ∀ r < twoRanks.size, (twoRanks.addr r).length < 2 ^ 31 := by decide
  refine ⟨s, reached, (addresses_exchanged twoRanks short).1 s reached, first, second, ?_⟩
  rw [Rank.find, received]

theorem exists_done (countable : ∀ r < job.size, 0 ≤ job.count r) :
    ∃ s, Reachable job s ∧ ∀ q < job.size, (s q).location = .done := by
  refine exists_final (State.remaining job)
    (fun _ _ _ running _ taken => Job.Running.step countable running taken)
    (fun _ _ _ running _ taken => remaining_decreases running taken)
    (fun s running unfinished => ?_) Job.Running.initial
  simp only [not_forall] at unfinished
  obtain ⟨q, inside, unfinished⟩ := unfinished
  obtain ⟨action, t, taken, _⟩ := running.proceeds inside unfinished
  exact ⟨action, t, trivial, taken⟩

/-- Rank 0 has an address of `2 ^ 32 + 1` bytes, and the count of its broadcast is one. -/
def longAddress : Job where
  size := 2
  addr r := if r = 0 then List.replicate (2 ^ 32 + 1) 1 else []

theorem long_address_cut :
    ∃ s, Reachable longAddress s ∧ (s 1).location = .done ∧
      (s 1).find 0 ≠ .ok (longAddress.addr 0) := by
  have address : longAddress.addr 0 = List.replicate (2 ^ 32 + 1) 1 := by
    simp only [longAddress, if_true]
  have count : longAddress.count 0 = 1 := by
    rw [Job.count, address, List.length_replicate]
    decide
  have countable : ∀ r < longAddress.size, 0 ≤ longAddress.count r := by
    intro r inside
    obtain rfl | rfl : r = 0 ∨ r = 1 := by
      have two : longAddress.size = 2 := rfl
      omega
    · rw [count]
      decide
    · decide
  obtain ⟨s, reached, ended⟩ := exists_done countable
  have done := ended 1 (by decide)
  refine ⟨s, reached, done, ?_⟩
  have doing := running_of_reachable countable reached 1 (by decide)
  rw [doing.find_eq done (by decide), if_pos (by decide), if_neg (by decide)]
  intro same
  have second := congrArg (·[1]?) (Except.ok.inj same)
  have one : (List.replicate (2 ^ 32 + 1) (1 : UInt8)).take 1 = [1] := rfl
  have clamp : (1 : Int32).toNatClampNeg = 1 := by decide
  have zero : (0 : Int).toNat = 0 := rfl
  simp only [zero, Job.received, address, count, List.length_replicate, clamp, one,
    write_replicate_zero, List.length_singleton] at second
  rw [List.singleton_append, List.getElem?_cons_succ, List.getElem?_replicate,
    List.getElem?_replicate, if_pos (by decide), if_pos (by decide)] at second
  exact absurd second (by decide)

end Oomph.Ucx.AddressDb
