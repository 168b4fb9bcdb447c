import Oomph.Machine.Memory
import Oomph.Machine.Run
import Mathlib.Algebra.Group.Nat.Defs
import Mathlib.Tactic.Common

namespace Oomph.Libfabric.Bootstrap

open Machine

/-! `MPI_exchange_localities` and `debug_print_av_vector` on all ranks.  The other ranks send
their address to rank 0, which puts them one after the other into a vector of bytes and
sends the whole vector to each of them.  A message is in a channel from the call of
`MPI_Send` until the receive that takes it; `MPI_Send` may return before or after that.
-/

abbrev Bytes := List UInt8

/-- The ranks, `locality_defs::array_size` and the address of the endpoint of each rank. -/
structure Job where
  size : Nat
  arraySize : Nat
  here : Nat → Bytes
  sized : ∀ r, (here r).length = arraySize

/-- `i * locality_defs::array_size`, an `int` times a `std::uint32_t`. -/
def Job.bytes (job : Job) (i : Nat) : Nat := i * job.arraySize % 2 ^ 32

/-- Where a rank is.  `posted` tells whether it is inside `MPI_Send`. -/
inductive Location
  | outside
  | send (dst : Nat) (posted : Bool)
  | recv (src : Nat)
  | insert (i : Nat)
  | lookup (i : Nat)
  | done
  | terminated
  | threw
  | undefined
deriving DecidableEq, Repr

structure Rank where
  location : Location
  localities : Bytes
  av : List Bytes
deriving DecidableEq, Repr

/-- `channel (src, dst)` holds the messages in transit, the oldest first. -/
structure State where
  ranks : Nat → Rank
  channel : Nat × Nat → List Bytes

def State.initial : State where
  ranks := fun _ => { location := .outside, localities := [], av := [] }
  channel := fun _ => []

/-- What the scheduler, MPI and the fabric choose: `sent` is the return of `MPI_Send`. -/
inductive Action
  | start (q : Nat)
  | post (q : Nat)
  | sent (q : Nat)
  | recv (q : Nat)
  | insert (q : Nat) (ret : Int)
  | lookup (q : Nat) (ret : Int) (addrlen : Nat)
deriving DecidableEq, Repr

namespace Job

variable (job : Job)

def check (i : Nat) : Location := if i < job.size then .lookup i else .done

def populate (i : Nat) : Location := if i < job.size then .insert i else job.check 0

def scatter (i : Nat) : Location := if i < job.size then .send i false else job.populate 0

def gather (i : Nat) : Location := if i < job.size then .recv i else job.scatter 1

def start (q : Nat) (rank : Rank) : Rank :=
  let localities : Bytes := List.replicate (job.bytes job.size) 0
  if 0 < q then { rank with localities, location := .send 0 false }
  else if job.arraySize ≤ localities.length then
    { rank with localities := write localities 0 (job.here q), location := job.gather 1 }
  else { rank with localities, location := .undefined }

/-- The buffer that is sent; the count is an `int`, and none is left when it is negative. -/
def message (q : Nat) (rank : Rank) : Option Bytes :=
  if 0 < q then
    if job.bytes 1 < 2 ^ 31 then some ((job.here q).take (job.bytes 1)) else none
  else
    if job.bytes job.size < 2 ^ 31 then some (rank.localities.take (job.bytes job.size)) else none

def afterSend (q dst : Nat) : Location :=
  if 0 < q then .recv 0 else job.scatter (dst + 1)

/-- `MPI_Recv` writes at the position of the sender on rank 0 and at the start elsewhere.  The
count is that of the whole vector on all ranks. -/
def receive (q src : Nat) (rank : Rank) (message : Bytes) : Rank :=
  let offset := if 0 < q then 0 else job.bytes src
  if job.bytes job.size < 2 ^ 31 ∧ message.length ≤ job.bytes job.size ∧
      offset + message.length ≤ rank.localities.length then
    { rank with
      localities := write rank.localities offset message
      location := if 0 < q then job.populate 0 else job.gather (src + 1) }
  else { rank with location := .undefined }

/-- `insert_address`; the constructor of `fabric_error` terminates the process, also where the
error is not thrown. -/
def insert (i : Nat) (ret : Int) (rank : Rank) : Rank :=
  if job.bytes i < 2 ^ 31 ∧ job.bytes i + job.arraySize ≤ rank.localities.length then
    if ret ≤ 0 then { rank with location := .terminated }
    else
      { rank with
        av := if ret = 1 then rank.av ++ [read rank.localities (job.bytes i) job.arraySize]
          else rank.av
        location := job.populate (i + 1) }
  else { rank with location := .undefined }

def lookup (i : Nat) (ret : Int) (addrlen : Nat) (rank : Rank) : Rank :=
  if ret = 0 ∧ addrlen = job.arraySize then { rank with location := job.check (i + 1) }
  else { rank with location := .threw }

end Job

@[simps -fullyApplied]
def State.setRank (s : State) (q : Nat) (rank : Rank) : State :=
  { s with ranks := Function.update s.ranks q rank }

@[simps -fullyApplied]
def State.setChannel (s : State) (src dst : Nat) (messages : List Bytes) : State :=
  { s with channel := Function.update s.channel (src, dst) messages }

def Rank.moveTo (rank : Rank) (location : Location) : Rank :=
  { rank with location }

def Action.rank : Action → Nat
  | .start q => q
  | .post q => q
  | .sent q => q
  | .recv q => q
  | .insert q _ => q
  | .lookup q _ _ => q

def stepRank (job : Job) (s : State) (rank : Rank) : Action → Option State
  | .start q =>
    match rank.location with
    | .outside => some (s.setRank q (job.start q rank))
    | _ => none
  | .post q =>
    match rank.location with
    | .send dst false =>
      match job.message q rank with
      | some message =>
        some ((s.setChannel q dst (s.channel (q, dst) ++ [message])).setRank q
          (rank.moveTo (.send dst true)))
      | none => some (s.setRank q (rank.moveTo .undefined))
    | _ => none
  | .sent q =>
    match rank.location with
    | .send dst true => some (s.setRank q (rank.moveTo (job.afterSend q dst)))
    | _ => none
  | .recv q =>
    match rank.location with
    | .recv src =>
      match s.channel (src, q) with
      | message :: rest =>
        some ((s.setChannel src q rest).setRank q (job.receive q src rank message))
      | [] => none
    | _ => none
  | .insert q ret =>
    match rank.location with
    | .insert i => some (s.setRank q (job.insert i ret rank))
    | _ => none
  | .lookup q ret addrlen =>
    match rank.location with
    | .lookup i =>
      if ret = 0 → i < rank.av.length then some (s.setRank q (job.lookup i ret addrlen rank))
      else none
    | _ => none

def step (job : Job) (s : State) (action : Action) : Option State :=
  if action.rank < job.size then stepRank job s (s.ranks action.rank) action else none

abbrev Reachable (job : Job) (s : State) : Prop :=
  Reaches (step job) (fun _ _ => True) State.initial s

structure Job.Fits (job : Job) : Prop where
  ranks : 1 ≤ job.size
  bytes : job.size * job.arraySize < 2 ^ 31

namespace Job

variable {job : Job}

theorem Fits.bytes_eq (fits : job.Fits) {i : Nat} (inside : i ≤ job.size) :
    job.bytes i = i * job.arraySize ∧ i * job.arraySize < 2 ^ 31 := by
  have less : i * job.arraySize ≤ job.size * job.arraySize := Nat.mul_le_mul_right _ inside
  have bound := fits.bytes
  exact ⟨Nat.mod_eq_of_lt (by omega), by omega⟩

/-- The vector of rank 0 when it has the addresses of the ranks before `k`. -/
def blocks (job : Job) (k : Nat) : List Bytes :=
  (List.range job.size).map fun j => if j < k then job.here j else List.replicate job.arraySize 0

def all (job : Job) : Bytes := (job.blocks job.size).flatten

theorem length_blocks (k : Nat) : (job.blocks k).length = job.size := by
  rw [blocks, List.length_map, List.length_range]

theorem blocks_even (k : Nat) : ∀ block ∈ job.blocks k, block.length = job.arraySize := by
  intro block member
  obtain ⟨j, _, rfl⟩ := List.mem_map.mp member
  by_cases early : j < k
  · rw [if_pos early, job.sized]
  · rw [if_neg early, List.length_replicate]

theorem getElem_blocks {k i : Nat} (inside : i < (job.blocks k).length) :
    (job.blocks k)[i] = if i < k then job.here i else List.replicate job.arraySize 0 := by
  simp [blocks]

theorem length_blocks_flatten (k : Nat) :
    (job.blocks k).flatten.length = job.size * job.arraySize := by
  rw [length_flatten_blocks (blocks_even k), length_blocks]

theorem length_all : job.all.length = job.size * job.arraySize := length_blocks_flatten _

theorem set_blocks (i : Nat) : (job.blocks i).set i (job.here i) = job.blocks (i + 1) := by
  apply List.ext_getElem
  · rw [List.length_set, length_blocks, length_blocks]
  · intro j _ inside
    rw [List.getElem_set, getElem_blocks, getElem_blocks]
    by_cases here : i = j
    · subst here
      rw [if_pos rfl, if_pos (Nat.lt_succ_self i)]
    · have same : (j < i + 1) = (j < i) := propext (by omega)
      rw [if_neg here]
      simp only [same]

theorem flatten_blocks_zero :
    (job.blocks 0).flatten = List.replicate (job.size * job.arraySize) 0 := by
  simp [blocks, List.flatten_replicate_replicate]

theorem write_blocks {i : Nat} (inside : i < job.size) :
    write (job.blocks i).flatten (i * job.arraySize) (job.here i) =
      (job.blocks (i + 1)).flatten := by
  rw [write_flatten (blocks_even i) (by rwa [length_blocks]) (job.sized i), set_blocks]

theorem read_all {i : Nat} (inside : i < job.size) :
    read job.all (i * job.arraySize) job.arraySize = job.here i := by
  have bound : i < (job.blocks job.size).length := by rwa [length_blocks]
  rw [all, read_flatten (blocks_even job.size) bound, getElem_blocks, if_pos inside]

end Job

def Location.gathered (size : Nat) : Location → Nat
  | .outside => 1
  | .recv i => i
  | _ => size

def Location.scattered (size : Nat) : Location → Nat
  | .outside => 1
  | .recv _ => 1
  | .send i posted => i + posted.toNat
  | _ => size

def Location.hasPosted : Location → Bool
  | .outside => false
  | .send _ posted => posted
  | _ => true

def Location.hasTaken : Location → Bool
  | .outside => false
  | .send _ _ => false
  | .recv _ => false
  | _ => true

def Location.isTail : Location → Bool
  | .insert _ => true
  | .lookup _ => true
  | .done => true
  | .terminated => true
  | .threw => true
  | _ => false

namespace Job

/-- Each channel holds the one message that was sent through it and not yet received. -/
structure Linked (job : Job) (s : State) : Prop where
  up : ∀ r, 0 < r → r < job.size → s.channel (r, 0) =
    if (s.ranks r).location.hasPosted = true ∧ (s.ranks 0).location.gathered job.size ≤ r then
      [job.here r] else []
  posted : ∀ r, 0 < r → r < job.size → r < (s.ranks 0).location.gathered job.size →
    (s.ranks r).location.hasPosted = true
  down : ∀ r, 0 < r → r < job.size → s.channel (0, r) =
    if r < (s.ranks 0).location.scattered job.size ∧ (s.ranks r).location.hasTaken = false then
      [job.all] else []
  taken : ∀ r, 0 < r → r < job.size → (s.ranks r).location.hasTaken = true →
    r < (s.ranks 0).location.scattered job.size

def Filled (job : Job) (av : List Bytes) (i : Nat) : Prop :=
  av = (List.range i).map job.here ∨ av.length < i

def Populating (job : Job) (rank : Rank) : Prop :=
  match rank.location with
  | .insert i => i < job.size ∧ rank.localities = job.all ∧ job.Filled rank.av i
  | .lookup i => i < job.size ∧ job.Filled rank.av job.size ∧ i ≤ rank.av.length
  | .done => rank.av = (List.range job.size).map job.here
  | .terminated => True
  | .threw => True
  | _ => False

def Root (job : Job) (rank : Rank) : Prop :=
  match rank.location with
  | .outside => rank.av = []
  | .send i _ => 0 < i ∧ i < job.size ∧ rank.localities = job.all ∧ rank.av = []
  | .recv i => 0 < i ∧ i < job.size ∧ rank.localities = (job.blocks i).flatten ∧ rank.av = []
  | _ => job.Populating rank

def Leaf (job : Job) (rank : Rank) : Prop :=
  match rank.location with
  | .outside => rank.av = []
  | .send i _ => i = 0 ∧ rank.localities = (job.blocks 0).flatten ∧ rank.av = []
  | .recv i => i = 0 ∧ rank.localities = (job.blocks 0).flatten ∧ rank.av = []
  | _ => job.Populating rank

def Doing (job : Job) (q : Nat) (rank : Rank) : Prop :=
  if 0 < q then job.Leaf rank else job.Root rank

structure Sound (job : Job) (s : State) : Prop where
  linked : job.Linked s
  doing : ∀ q < job.size, job.Doing q (s.ranks q)

variable {job : Job} {rank moved : Rank} {i q : Nat}

theorem doing_root : job.Doing 0 rank ↔ job.Root rank := by
  rw [Doing, if_neg (Nat.lt_irrefl 0)]

theorem doing_leaf (leaf : 0 < q) : job.Doing q rank ↔ job.Leaf rank := by
  rw [Doing, if_pos leaf]

theorem Populating.isTail (populating : job.Populating rank) : rank.location.isTail = true := by
  unfold Populating at populating
  split at populating
  case h_6 => exact populating.elim
  all_goals simp_all [Location.isTail]

theorem doing_of_populating (populating : job.Populating rank) : job.Doing q rank := by
  have tail := populating.isTail
  by_cases leaf : 0 < q
  · rw [doing_leaf leaf, Leaf]
    split <;> simp_all [Location.isTail]
  · rw [Doing, if_neg leaf, Root]
    split <;> simp_all [Location.isTail]

theorem populating_of_doing (doing : job.Doing q rank) (tail : rank.location.isTail = true) :
    job.Populating rank := by
  by_cases leaf : 0 < q
  · rw [doing_leaf leaf, Leaf] at doing
    split at doing <;> simp_all [Location.isTail]
  · rw [Doing, if_neg leaf, Root] at doing
    split at doing <;> simp_all [Location.isTail]

theorem isTail_check (i : Nat) : (job.check i).isTail = true := by
  unfold check
  split <;> rfl

theorem isTail_populate (i : Nat) : (job.populate i).isTail = true := by
  unfold populate
  split
  · rfl
  · exact isTail_check 0

theorem populating_check (location : moved.location = job.check i) (inside : i ≤ job.size)
    (filled : job.Filled moved.av job.size) (checked : i ≤ moved.av.length) :
    job.Populating moved := by
  by_cases more : i < job.size
  · rw [check, if_pos more] at location
    simp only [Populating, location]
    exact ⟨more, filled, checked⟩
  · rw [check, if_neg more] at location
    simp only [Populating, location]
    rcases filled with whole | short
    · exact whole
    · omega

theorem populating_populate (location : moved.location = job.populate i) (inside : i ≤ job.size)
    (localities : moved.localities = job.all) (filled : job.Filled moved.av i) :
    job.Populating moved := by
  by_cases more : i < job.size
  · rw [populate, if_pos more] at location
    simp only [Populating, location]
    exact ⟨more, localities, filled⟩
  · have last : i = job.size := by omega
    rw [populate, if_neg more] at location
    exact populating_check location (Nat.zero_le _) (last ▸ filled) (Nat.zero_le _)

theorem doing_scatter (location : moved.location = job.scatter i) (positive : 0 < i)
    (localities : moved.localities = job.all) (av : moved.av = []) :
    job.Doing 0 moved := by
  by_cases more : i < job.size
  · rw [scatter, if_pos more] at location
    rw [doing_root]
    simp only [Root, location]
    exact ⟨positive, more, localities, av⟩
  · rw [scatter, if_neg more] at location
    exact doing_of_populating
      (populating_populate location (Nat.zero_le _) localities (.inl (by rw [av]; rfl)))

theorem doing_gather (location : moved.location = job.gather i) (positive : 0 < i)
    (inside : i ≤ job.size) (localities : moved.localities = (job.blocks i).flatten)
    (av : moved.av = []) : job.Doing 0 moved := by
  by_cases more : i < job.size
  · rw [gather, if_pos more] at location
    rw [doing_root]
    simp only [Root, location]
    exact ⟨positive, more, localities, av⟩
  · have last : i = job.size := by omega
    rw [gather, if_neg more] at location
    exact doing_scatter location Nat.one_pos (by rw [localities, last, all]) av

theorem gathered_of_isTail {location : Location} (tail : location.isTail = true) (size : Nat) :
    location.gathered size = size ∧ location.scattered size = size := by
  cases location <;> simp_all [Location.isTail, Location.gathered, Location.scattered]

theorem hasPosted_of_isTail {location : Location} (tail : location.isTail = true) :
    location.hasPosted = true ∧ location.hasTaken = true := by
  cases location <;> simp_all [Location.isTail, Location.hasPosted, Location.hasTaken]

theorem seen_scatter (inside : i ≤ job.size) :
    (job.scatter i).gathered job.size = job.size ∧ (job.scatter i).scattered job.size = i := by
  by_cases more : i < job.size
  · rw [scatter, if_pos more]
    exact ⟨rfl, rfl⟩
  · rw [scatter, if_neg more]
    obtain ⟨gathered, scattered⟩ := gathered_of_isTail (@isTail_populate job 0) job.size
    exact ⟨gathered, scattered.trans (by omega)⟩

theorem seen_gather (fits : job.Fits) (inside : i ≤ job.size) :
    (job.gather i).gathered job.size = i ∧ (job.gather i).scattered job.size = 1 := by
  by_cases more : i < job.size
  · rw [gather, if_pos more]
    exact ⟨rfl, rfl⟩
  · rw [gather, if_neg more]
    obtain ⟨gathered, scattered⟩ := seen_scatter fits.ranks
    exact ⟨gathered.trans (by omega), scattered⟩

end Job

section Steps

variable {job : Job} {s t : State} {rank moved : Rank} {i q : Nat}

theorem Job.Linked.setRank (linked : job.Linked s)
    (root : q = 0 →
      moved.location.gathered job.size = (s.ranks q).location.gathered job.size ∧
        moved.location.scattered job.size = (s.ranks q).location.scattered job.size)
    (leaf : 0 < q →
      moved.location.hasPosted = (s.ranks q).location.hasPosted ∧
        moved.location.hasTaken = (s.ranks q).location.hasTaken) :
    job.Linked (s.setRank q moved) := by
  have first :
      ((s.setRank q moved).ranks 0).location.gathered job.size =
          (s.ranks 0).location.gathered job.size ∧
        ((s.setRank q moved).ranks 0).location.scattered job.size =
          (s.ranks 0).location.scattered job.size := by
    rw [State.setRank_ranks]
    by_cases here : q = 0
    · subst here
      rw [Function.update_self]
      exact root rfl
    · rw [Function.update_of_ne (Ne.symm here)]
      exact ⟨rfl, rfl⟩
  have other (r : Nat) (positive : 0 < r) :
      ((s.setRank q moved).ranks r).location.hasPosted = (s.ranks r).location.hasPosted ∧
        ((s.setRank q moved).ranks r).location.hasTaken = (s.ranks r).location.hasTaken := by
    rw [State.setRank_ranks]
    by_cases here : q = r
    · subst here
      rw [Function.update_self]
      exact leaf positive
    · rw [Function.update_of_ne (Ne.symm here)]
      exact ⟨rfl, rfl⟩
  constructor
  · intro r positive inside
    rw [first.1, (other r positive).1]
    exact linked.up r positive inside
  · intro r positive inside
    rw [first.1, (other r positive).1]
    exact linked.posted r positive inside
  · intro r positive inside
    rw [first.2, (other r positive).2]
    exact linked.down r positive inside
  · intro r positive inside
    rw [first.2, (other r positive).2]
    exact linked.taken r positive inside

theorem doing_setRank (doing : ∀ p < job.size, job.Doing p (s.ranks p))
    (own : job.Doing q moved) : ∀ p < job.size, job.Doing p ((s.setRank q moved).ranks p) := by
  intro p inside
  rw [State.setRank_ranks]
  by_cases here : p = q
  · subst here
    rw [Function.update_self]
    exact own
  · rw [Function.update_of_ne here]
    exact doing p inside

theorem Job.Sound.tail (sound : job.Sound s) (tail : (s.ranks q).location.isTail = true)
    (populating : job.Populating moved) : job.Sound (s.setRank q moved) := by
  have before := gathered_of_isTail tail job.size
  have after := gathered_of_isTail populating.isTail job.size
  have posted := hasPosted_of_isTail tail
  have postedAfter := hasPosted_of_isTail populating.isTail
  refine ⟨sound.linked.setRank (fun _ => ?_) (fun _ => ?_),
    doing_setRank sound.doing (doing_of_populating populating)⟩
  · exact ⟨after.1.trans before.1.symm, after.2.trans before.2.symm⟩
  · exact ⟨postedAfter.1.trans posted.1.symm, postedAfter.2.trans posted.2.symm⟩

theorem Job.Sound.insert (fits : job.Fits) (sound : job.Sound s) (inside : q < job.size)
    (location : (s.ranks q).location = .insert i) (ret : Int) :
    job.Sound (s.setRank q (job.insert i ret (s.ranks q))) := by
  have tail : (s.ranks q).location.isTail = true := by rw [location]; rfl
  have populating := populating_of_doing (sound.doing q inside) tail
  simp only [Job.Populating, location] at populating
  obtain ⟨more, localities, filled⟩ := populating
  refine sound.tail tail ?_
  obtain ⟨offset, bound⟩ := fits.bytes_eq (Nat.le_of_lt more)
  have room : i * job.arraySize + job.arraySize ≤ (s.ranks q).localities.length := by
    rw [localities, Job.length_all, ← Nat.succ_mul]
    exact Nat.mul_le_mul_right _ more
  rw [Job.insert, offset, if_pos ⟨bound, room⟩]
  by_cases failed : ret ≤ 0
  · rw [if_pos failed]
    trivial
  · rw [if_neg failed]
    refine Job.populating_populate rfl more localities ?_
    by_cases appended : ret = 1
    · simp only [if_pos appended]
      rcases filled with whole | short
      · refine .inl ?_
        rw [whole, localities, Job.read_all more, List.range_succ, List.map_append]
        rfl
      · exact .inr (by rw [List.length_append, List.length_singleton]; omega)
    · simp only [if_neg appended]
      rcases filled with whole | short
      · exact .inr (by rw [whole, List.length_map, List.length_range]; omega)
      · exact .inr (by omega)

theorem Job.Sound.lookup (sound : job.Sound s) (inside : q < job.size)
    (location : (s.ranks q).location = .lookup i) {ret : Int} (addrlen : Nat)
    (present : ret = 0 → i < (s.ranks q).av.length) :
    job.Sound (s.setRank q (job.lookup i ret addrlen (s.ranks q))) := by
  have tail : (s.ranks q).location.isTail = true := by rw [location]; rfl
  have populating := populating_of_doing (sound.doing q inside) tail
  simp only [Job.Populating, location] at populating
  obtain ⟨more, filled, _⟩ := populating
  refine sound.tail tail ?_
  rw [Job.lookup]
  split
  · rename_i found
    exact Job.populating_check rfl more filled (present found.1)
  · trivial

theorem Job.Sound.start (fits : job.Fits) (sound : job.Sound s) (inside : q < job.size)
    (location : (s.ranks q).location = .outside) :
    job.Sound (s.setRank q (job.start q (s.ranks q))) := by
  obtain ⟨whole, _⟩ := fits.bytes_eq (Nat.le_refl _)
  have doing := sound.doing q inside
  by_cases leaf : 0 < q
  · rw [doing_leaf leaf] at doing
    simp only [Job.Leaf, location] at doing
    rw [Job.start, if_pos leaf, whole, ← Job.flatten_blocks_zero]
    refine ⟨sound.linked.setRank (by omega) (fun _ => ?_), doing_setRank sound.doing ?_⟩
    · rw [location]
      exact ⟨rfl, rfl⟩
    · rw [doing_leaf leaf]
      exact ⟨rfl, rfl, doing⟩
  · obtain rfl : q = 0 := by omega
    rw [doing_root] at doing
    simp only [Job.Root, location] at doing
    have room : job.arraySize ≤ (List.replicate (job.bytes job.size) (0 : UInt8)).length := by
      rw [List.length_replicate, whole]
      exact Nat.le_mul_of_pos_left _ inside
    rw [Job.start, if_neg leaf, if_pos room, whole, ← Job.flatten_blocks_zero]
    refine ⟨sound.linked.setRank (fun _ => ?_) (by omega), doing_setRank sound.doing ?_⟩
    · obtain ⟨gathered, scattered⟩ := seen_gather fits fits.ranks
      rw [location]
      exact ⟨gathered, scattered⟩
    · refine doing_gather rfl Nat.one_pos fits.ranks ?_ doing
      have copied := Job.write_blocks inside
      rwa [Nat.zero_mul] at copied

theorem Job.Sound.sent (sound : job.Sound s) (inside : q < job.size) {dst : Nat}
    (location : (s.ranks q).location = .send dst true) :
    job.Sound (s.setRank q ((s.ranks q).moveTo (job.afterSend q dst))) := by
  have doing := sound.doing q inside
  by_cases leaf : 0 < q
  · rw [doing_leaf leaf] at doing
    simp only [Job.Leaf, location] at doing
    obtain ⟨_, localities, av⟩ := doing
    rw [Job.afterSend, if_pos leaf]
    refine ⟨sound.linked.setRank (by omega) (fun _ => ?_), doing_setRank sound.doing ?_⟩
    · rw [location]
      exact ⟨rfl, rfl⟩
    · rw [doing_leaf leaf]
      exact ⟨rfl, localities, av⟩
  · obtain rfl : q = 0 := by omega
    rw [doing_root] at doing
    simp only [Job.Root, location] at doing
    obtain ⟨positive, more, localities, av⟩ := doing
    rw [Job.afterSend, if_neg leaf]
    refine ⟨sound.linked.setRank (fun _ => ?_) (by omega), doing_setRank sound.doing ?_⟩
    · obtain ⟨gathered, scattered⟩ := seen_scatter more
      rw [location]
      exact ⟨gathered, scattered⟩
    · exact doing_scatter rfl (Nat.succ_pos _) localities av

theorem Job.Linked.ofLeaf (linked : job.Linked s) (leaf : 0 < q)
    (ranks : t.ranks = Function.update s.ranks q moved)
    (others : ∀ r, r ≠ q → t.channel (r, 0) = s.channel (r, 0) ∧
      t.channel (0, r) = s.channel (0, r))
    (up : t.channel (q, 0) =
      if moved.location.hasPosted = true ∧ (s.ranks 0).location.gathered job.size ≤ q then
        [job.here q] else [])
    (posted : q < (s.ranks 0).location.gathered job.size → moved.location.hasPosted = true)
    (down : t.channel (0, q) =
      if q < (s.ranks 0).location.scattered job.size ∧ moved.location.hasTaken = false then
        [job.all] else [])
    (taken : moved.location.hasTaken = true → q < (s.ranks 0).location.scattered job.size) :
    job.Linked t := by
  have root : t.ranks 0 = s.ranks 0 := by rw [ranks, Function.update_of_ne (by omega)]
  have own : t.ranks q = moved := by rw [ranks, Function.update_self]
  have other (r : Nat) (different : r ≠ q) : t.ranks r = s.ranks r := by
    rw [ranks, Function.update_of_ne different]
  constructor
  · intro r positive inside
    rw [root]
    by_cases here : r = q
    · rw [here, own]
      exact up
    · rw [other r here, (others r here).1]
      exact linked.up r positive inside
  · intro r positive inside
    rw [root]
    by_cases here : r = q
    · rw [here, own]
      exact posted
    · rw [other r here]
      exact linked.posted r positive inside
  · intro r positive inside
    rw [root]
    by_cases here : r = q
    · rw [here, own]
      exact down
    · rw [other r here, (others r here).2]
      exact linked.down r positive inside
  · intro r positive inside
    rw [root]
    by_cases here : r = q
    · rw [here, own]
      exact taken
    · rw [other r here]
      exact linked.taken r positive inside

theorem pair_ne_left {a b c d : Nat} (different : a ≠ c) : (a, b) ≠ (c, d) := by
  simp [different]

theorem pair_ne_right {a b c d : Nat} (different : b ≠ d) : (a, b) ≠ (c, d) := by
  simp [different]

theorem Job.Sound.postLeaf (sound : job.Sound s) (leaf : 0 < q) (inside : q < job.size)
    {dst : Nat} (location : (s.ranks q).location = .send dst false) :
    job.Sound ((s.setChannel q dst (s.channel (q, dst) ++ [job.here q])).setRank q
      ((s.ranks q).moveTo (.send dst true))) := by
  have doing := sound.doing q inside
  rw [doing_leaf leaf] at doing
  simp only [Job.Leaf, location] at doing
  obtain ⟨rfl, localities, av⟩ := doing
  have linked := sound.linked
  have waiting : (s.ranks 0).location.gathered job.size ≤ q := by
    by_contra early
    have posted := linked.posted q leaf inside (by omega)
    rw [location] at posted
    cases posted
  have empty : s.channel (q, 0) = [] := by
    rw [linked.up q leaf inside, location]
    exact if_neg fun ⟨posted, _⟩ => by cases posted
  have untaken : s.channel (0, q) = if q < (s.ranks 0).location.scattered job.size ∧ false = false
      then [job.all] else [] := by
    rw [linked.down q leaf inside, location]
    rfl
  refine ⟨linked.ofLeaf leaf rfl (fun r different => ?_) ?_ (fun _ => rfl) ?_ nofun,
    doing_setRank sound.doing ?_⟩
  · simp only [State.setRank_channel, State.setChannel_channel]
    rw [Function.update_of_ne (pair_ne_left different),
      Function.update_of_ne (pair_ne_left (by omega))]
    exact ⟨rfl, rfl⟩
  · rw [State.setRank_channel, State.setChannel_channel, Function.update_self, empty,
      if_pos ⟨rfl, waiting⟩]
    rfl
  · rw [State.setRank_channel, State.setChannel_channel,
      Function.update_of_ne (pair_ne_left (by omega))]
    exact untaken
  · rw [doing_leaf leaf]
    exact ⟨rfl, localities, av⟩

theorem Job.Sound.recvLeaf (fits : job.Fits) (sound : job.Sound s) (leaf : 0 < q)
    (inside : q < job.size) {src : Nat} (location : (s.ranks q).location = .recv src)
    {message : Bytes} {rest : List Bytes} (arrived : s.channel (src, q) = message :: rest) :
    job.Sound ((s.setChannel src q rest).setRank q (job.receive q src (s.ranks q) message)) := by
  have doing := sound.doing q inside
  rw [doing_leaf leaf] at doing
  simp only [Job.Leaf, location] at doing
  obtain ⟨rfl, localities, av⟩ := doing
  have linked := sound.linked
  have down := linked.down q leaf inside
  rw [arrived] at down
  by_cases ready : q < (s.ranks 0).location.scattered job.size ∧
      (s.ranks q).location.hasTaken = false
  · rw [if_pos ready] at down
    cases down
    obtain ⟨whole, bound⟩ := fits.bytes_eq (Nat.le_refl _)
    have room : (s.ranks q).localities.length = job.size * job.arraySize := by
      rw [localities, Job.length_blocks_flatten]
    have filled : write (s.ranks q).localities 0 job.all = job.all := by
      rw [localities, Job.flatten_blocks_zero, write_replicate_zero, Job.length_all, Nat.sub_self,
        List.replicate_zero, List.append_nil]
    rw [Job.receive, if_pos leaf, whole, Job.length_all, room, Nat.zero_add,
      if_pos ⟨bound, Nat.le_refl _, Nat.le_refl _⟩, filled, if_pos leaf]
    have populating : job.Populating
        { s.ranks q with localities := job.all, location := job.populate 0 } :=
      populating_populate rfl (Nat.zero_le _) rfl (.inl (by rw [av]; rfl))
    obtain ⟨posted, taken⟩ := hasPosted_of_isTail populating.isTail
    refine ⟨linked.ofLeaf leaf rfl (fun r different => ?_) ?_ (fun _ => posted) ?_
      (fun _ => ready.1), doing_setRank sound.doing (doing_of_populating populating)⟩
    · simp only [State.setRank_channel, State.setChannel_channel]
      rw [Function.update_of_ne (pair_ne_right (by omega)),
        Function.update_of_ne (pair_ne_right different)]
      exact ⟨rfl, rfl⟩
    · rw [State.setRank_channel, State.setChannel_channel,
        Function.update_of_ne (pair_ne_left (by omega)), linked.up q leaf inside, location, posted]
      rfl
    · rw [State.setRank_channel, State.setChannel_channel, Function.update_self]
      exact (if_neg fun ⟨_, untaken⟩ => by rw [taken] at untaken; cases untaken).symm
  · rw [if_neg ready] at down
    cases down

theorem Job.Linked.ofRoot (ranks : t.ranks = Function.update s.ranks 0 moved)
    (up : ∀ r, 0 < r → r < job.size → t.channel (r, 0) =
      if (s.ranks r).location.hasPosted = true ∧ moved.location.gathered job.size ≤ r then
        [job.here r] else [])
    (posted : ∀ r, 0 < r → r < job.size → r < moved.location.gathered job.size →
      (s.ranks r).location.hasPosted = true)
    (down : ∀ r, 0 < r → r < job.size → t.channel (0, r) =
      if r < moved.location.scattered job.size ∧ (s.ranks r).location.hasTaken = false then
        [job.all] else [])
    (taken : ∀ r, 0 < r → r < job.size → (s.ranks r).location.hasTaken = true →
      r < moved.location.scattered job.size) :
    job.Linked t := by
  have root : t.ranks 0 = moved := by rw [ranks, Function.update_self]
  have other (r : Nat) (positive : 0 < r) : t.ranks r = s.ranks r := by
    rw [ranks, Function.update_of_ne (by omega)]
  constructor
  · intro r positive inside
    rw [root, other r positive]
    exact up r positive inside
  · intro r positive inside
    rw [root, other r positive]
    exact posted r positive inside
  · intro r positive inside
    rw [root, other r positive]
    exact down r positive inside
  · intro r positive inside
    rw [root, other r positive]
    exact taken r positive inside

theorem Job.Sound.postRoot (sound : job.Sound s) (inside : 0 < job.size) {dst : Nat}
    (location : (s.ranks 0).location = .send dst false) :
    job.Sound ((s.setChannel 0 dst (s.channel (0, dst) ++ [job.all])).setRank 0
      ((s.ranks 0).moveTo (.send dst true))) := by
  have doing := sound.doing 0 inside
  rw [doing_root] at doing
  simp only [Job.Root, location] at doing
  obtain ⟨positive, more, localities, av⟩ := doing
  obtain ⟨up, posted, down, taken⟩ := sound.linked
  have gathered : (s.ranks 0).location.gathered job.size = job.size := by rw [location]; rfl
  have scattered : (s.ranks 0).location.scattered job.size = dst := by rw [location]; rfl
  rw [gathered] at up posted
  rw [scattered] at down taken
  refine ⟨Job.Linked.ofRoot rfl ?_ posted ?_ ?_, doing_setRank sound.doing ?_⟩
  · intro r above below
    rw [State.setRank_channel, State.setChannel_channel,
      Function.update_of_ne (pair_ne_left (by omega))]
    exact up r above below
  · intro r above below
    rw [State.setRank_channel, State.setChannel_channel]
    by_cases here : r = dst
    · subst here
      have untaken : (s.ranks r).location.hasTaken = false := by
        cases flag : (s.ranks r).location.hasTaken with
        | false => rfl
        | true => exact absurd (taken r above below flag) (Nat.lt_irrefl r)
      have empty : s.channel (0, r) = [] := by
        rw [down r above below]
        exact if_neg fun ⟨early, _⟩ => Nat.lt_irrefl r early
      rw [Function.update_self, empty]
      exact (if_pos ⟨Nat.lt_succ_self r, untaken⟩).symm
    · have same : r < dst ↔ r < dst + 1 := by omega
      rw [Function.update_of_ne (pair_ne_right here), down r above below]
      exact if_congr (and_congr_left fun _ => same) rfl rfl
  · intro r above below flag
    have before := taken r above below flag
    exact Nat.lt_succ_of_lt before
  · rw [doing_root]
    exact ⟨positive, more, localities, av⟩

theorem Job.Sound.recvRoot (fits : job.Fits) (sound : job.Sound s) {src : Nat}
    (location : (s.ranks 0).location = .recv src) {message : Bytes} {rest : List Bytes}
    (arrived : s.channel (src, 0) = message :: rest) :
    job.Sound ((s.setChannel src 0 rest).setRank 0 (job.receive 0 src (s.ranks 0) message)) := by
  have doing := sound.doing 0 fits.ranks
  rw [doing_root] at doing
  simp only [Job.Root, location] at doing
  obtain ⟨positive, more, localities, av⟩ := doing
  obtain ⟨up, posted, down, taken⟩ := sound.linked
  have gathered : (s.ranks 0).location.gathered job.size = src := by rw [location]; rfl
  have scattered : (s.ranks 0).location.scattered job.size = 1 := by rw [location]; rfl
  rw [gathered] at up posted
  rw [scattered] at down taken
  have own := up src positive more
  rw [arrived] at own
  by_cases ready : (s.ranks src).location.hasPosted = true ∧ src ≤ src
  · rw [if_pos ready] at own
    cases own
    obtain ⟨whole, bound⟩ := fits.bytes_eq (Nat.le_refl _)
    obtain ⟨offset, _⟩ := fits.bytes_eq (Nat.le_of_lt more)
    have length : (s.ranks 0).localities.length = job.size * job.arraySize := by
      rw [localities, Job.length_blocks_flatten]
    have room : src * job.arraySize + job.arraySize ≤ job.size * job.arraySize := by
      rw [← Nat.succ_mul]
      exact Nat.mul_le_mul_right _ more
    rw [Job.receive, if_neg (Nat.lt_irrefl 0), if_neg (Nat.lt_irrefl 0), whole, offset, job.sized,
      length, if_pos ⟨bound, by omega, room⟩, localities, Job.write_blocks more]
    obtain ⟨gathered, scattered⟩ := seen_gather fits more
    refine ⟨Job.Linked.ofRoot rfl ?_ ?_ ?_ ?_, doing_setRank sound.doing ?_⟩
    · intro r above below
      rw [State.setRank_channel, State.setChannel_channel, gathered]
      by_cases here : r = src
      · subst here
        rw [Function.update_self]
        exact (if_neg fun ⟨_, later⟩ => by omega).symm
      · have same : src ≤ r ↔ src + 1 ≤ r := by omega
        rw [Function.update_of_ne (pair_ne_left here), up r above below]
        exact if_congr (and_congr_right fun _ => same) rfl rfl
    · intro r above below early
      rw [gathered] at early
      by_cases here : r = src
      · subst here
        exact ready.1
      · exact posted r above below (by omega)
    · intro r above below
      rw [State.setRank_channel, State.setChannel_channel, scattered,
        Function.update_of_ne (pair_ne_left (by omega))]
      exact down r above below
    · intro r above below flag
      rw [scattered]
      exact taken r above below flag
    · exact doing_gather rfl (Nat.succ_pos _) more rfl av
  · rw [if_neg ready] at own
    cases own

/-- The messages are what the receivers expect. -/
theorem Job.Sound.message_eq (fits : job.Fits) (sound : job.Sound s) (inside : q < job.size) {dst : Nat}
    (location : (s.ranks q).location = .send dst false) :
    job.message q (s.ranks q) = some (if 0 < q then job.here q else job.all) := by
  have doing := sound.doing q inside
  by_cases leaf : 0 < q
  · obtain ⟨one, bound⟩ := fits.bytes_eq fits.ranks
    rw [Nat.one_mul] at one bound
    rw [Job.message, if_pos leaf, if_pos leaf, one, if_pos bound, ← job.sized q, List.take_length]
  · obtain rfl : q = 0 := by omega
    obtain ⟨whole, bound⟩ := fits.bytes_eq (Nat.le_refl _)
    rw [doing_root] at doing
    simp only [Job.Root, location] at doing
    rw [Job.message, if_neg leaf, if_neg leaf, whole, if_pos bound, doing.2.2.1, ← Job.length_all,
      List.take_length]

theorem Job.Sound.step (fits : job.Fits) (sound : job.Sound s) {action : Action}
    (taken : step job s action = some t) : job.Sound t := by
  rw [Bootstrap.step, Option.ite_none_right_eq_some] at taken
  obtain ⟨inside, taken⟩ := taken
  cases action with
  | start q =>
    simp only [stepRank] at taken
    split at taken
    · rename_i location
      cases taken
      exact sound.start fits inside location
    · cases taken
  | post q =>
    simp only [stepRank] at taken
    split at taken
    · rename_i dst location
      simp only [Action.rank] at taken
      rw [sound.message_eq fits (q := q) inside location] at taken
      cases taken
      by_cases leaf : 0 < q
      · rw [if_pos leaf]
        exact sound.postLeaf leaf inside location
      · obtain rfl : q = 0 := by omega
        exact sound.postRoot inside location
    · cases taken
  | sent q =>
    simp only [stepRank] at taken
    split at taken
    · rename_i dst location
      cases taken
      exact sound.sent inside location
    · cases taken
  | recv q =>
    simp only [stepRank] at taken
    split at taken
    · rename_i src location
      split at taken
      · rename_i message rest arrived
        cases taken
        by_cases leaf : 0 < q
        · exact sound.recvLeaf fits leaf inside location arrived
        · obtain rfl : q = 0 := by omega
          exact sound.recvRoot fits location arrived
      · cases taken
    · cases taken
  | insert q ret =>
    simp only [stepRank] at taken
    split at taken
    · rename_i i location
      cases taken
      exact sound.insert fits inside location ret
    · cases taken
  | lookup q ret addrlen =>
    simp only [stepRank] at taken
    split at taken
    · rename_i i location
      rw [Option.ite_none_right_eq_some] at taken
      obtain ⟨present, taken⟩ := taken
      cases taken
      exact sound.lookup inside location addrlen present
    · cases taken

theorem Job.Sound.initial : job.Sound State.initial := by
  refine ⟨⟨?_, ?_, ?_, ?_⟩, ?_⟩
  · intro r above below
    exact (if_neg fun ⟨posted, _⟩ => by cases posted).symm
  · intro r above below early
    have one : (State.initial.ranks 0).location.gathered job.size = 1 := rfl
    omega
  · intro r above below
    have one : (State.initial.ranks 0).location.scattered job.size = 1 := rfl
    exact (if_neg fun ⟨early, _⟩ => by omega).symm
  · intro r above below taken
    cases taken
  · intro q inside
    by_cases leaf : 0 < q
    · exact (doing_leaf leaf).mpr rfl
    · obtain rfl : q = 0 := by omega
      exact doing_root.mpr rfl

theorem sound_of_reachable (fits : job.Fits) (reached : Reachable job s) : job.Sound s :=
  reached.invariant job.Sound .initial fun _ _ _ sound _ taken => sound.step fits taken

end Steps

end Oomph.Libfabric.Bootstrap
