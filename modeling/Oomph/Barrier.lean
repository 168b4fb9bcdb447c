import Oomph.Machine.Pool
import Oomph.Machine.Run

namespace Oomph.Barrier

open Machine

/-! The two counters of `barrier` and any number of threads that call it round after
round; in a round all threads call `operator()` or all call `thread_barrier()`.
Every load, store and exchange of a counter is a step of its own, and an exchange
may fail although the counter has the expected value.
-/

/-- `threads` is `m_threads`; `full` tells the rounds in which `operator()` is called. -/
structure Config where
  threads : Nat
  rounds : Nat
  full : Nat → Bool

inductive Location where
  | outside
  | load1
  | exchange1 (expected : Nat)
  | store1
  | wait1
  | rankBarrier
  | waitRank
  | load2
  | exchange2 (ex : Nat)
  | store2
  | wait2
deriving DecidableEq

structure Thread where
  round : Nat
  location : Location
deriving DecidableEq

/-- `rankBegun` and `rankEnded` record, for each round, how often `rank_barrier`
was called and has returned. -/
structure State where
  count : Nat
  count2 : Nat
  threads : List Thread
  rankBegun : Nat → Nat
  rankEnded : Nat → Nat

def State.initial (config : Config) : State where
  count := 0
  count2 := config.threads
  threads := List.replicate config.threads ⟨0, .outside⟩
  rankBegun := fun _ => 0
  rankEnded := fun _ => 0

structure Action where
  thread : Nat
  fails : Bool

@[simps -fullyApplied]
def State.moveTo (s : State) (index : Nat) (thread : Thread) : State :=
  { s with threads := s.threads.set index thread }

/-- `in_node1` counts the thread; the one that completes the count stores zero next. -/
@[simps -fullyApplied]
def State.countUp (s : State) (config : Config) (index round expected : Nat) : State :=
  { s with
    count := expected + 1
    threads := s.threads.set index
      ⟨round, if expected = config.threads - 1 then .store1 else .wait1⟩ }

@[simps -fullyApplied]
def State.resetCount (s : State) (config : Config) (index round : Nat) : State :=
  { s with
    count := 0
    threads := s.threads.set index ⟨round, if config.full round then .rankBarrier else .load2⟩
    rankBegun := if config.full round then
        Function.update s.rankBegun round (s.rankBegun round + 1) else s.rankBegun }

@[simps -fullyApplied]
def State.endRank (s : State) (index round : Nat) : State :=
  { s with
    threads := s.threads.set index ⟨round, .load2⟩
    rankEnded := Function.update s.rankEnded round (s.rankEnded round + 1) }

@[simps -fullyApplied]
def State.countDown (s : State) (index round ex : Nat) : State :=
  { s with
    count2 := ex - 1
    threads := s.threads.set index ⟨round, if ex = 1 then .store2 else .wait2⟩ }

@[simps -fullyApplied]
def State.resetCount2 (s : State) (config : Config) (index round : Nat) : State :=
  { s with
    count2 := config.threads
    threads := s.threads.set index ⟨round + 1, .outside⟩ }

def step (config : Config) (s : State) (action : Action) : Option State :=
  match s.threads[action.thread]? with
  | none => none
  | some ⟨round, location⟩ =>
    let goTo (next : Location) := some (s.moveTo action.thread ⟨round, next⟩)
    match location with
    | .outside => if round < config.rounds then goTo .load1 else none
    | .load1 => goTo (.exchange1 s.count)
    | .exchange1 expected =>
      if action.fails ∨ s.count ≠ expected then goTo .load1
      else some (s.countUp config action.thread round expected)
    | .store1 => some (s.resetCount config action.thread round)
    | .wait1 =>
      if s.count = 0 then goTo (if config.full round then .waitRank else .load2) else some s
    | .rankBarrier => some (s.endRank action.thread round)
    | .waitRank => if s.count2 = config.threads then some s else goTo .load2
    | .load2 => goTo (.exchange2 s.count2)
    | .exchange2 ex =>
      if action.fails ∨ s.count2 ≠ ex then goTo .load2
      else some (s.countDown action.thread round ex)
    | .store2 => some (s.resetCount2 config action.thread round)
    | .wait2 =>
      if s.count2 = config.threads then some (s.moveTo action.thread ⟨round + 1, .outside⟩)
      else some s

inductive Effect (config : Config) (s : State) (index : Nat) : State → Prop
  | same : Effect config s index s
  | enter (round : Nat) (found : s.threads[index]? = some ⟨round, .outside⟩)
      (more : round < config.rounds) : Effect config s index (s.moveTo index ⟨round, .load1⟩)
  | read1 (round : Nat) (found : s.threads[index]? = some ⟨round, .load1⟩) :
      Effect config s index (s.moveTo index ⟨round, .exchange1 s.count⟩)
  | retry1 (round expected : Nat) (found : s.threads[index]? = some ⟨round, .exchange1 expected⟩) :
      Effect config s index (s.moveTo index ⟨round, .load1⟩)
  | arrive (round : Nat) (found : s.threads[index]? = some ⟨round, .exchange1 s.count⟩) :
      Effect config s index (s.countUp config index round s.count)
  | reset (round : Nat) (found : s.threads[index]? = some ⟨round, .store1⟩) :
      Effect config s index (s.resetCount config index round)
  | pass (round : Nat) (found : s.threads[index]? = some ⟨round, .wait1⟩) (zero : s.count = 0) :
      Effect config s index
        (s.moveTo index ⟨round, if config.full round then .waitRank else .load2⟩)
  | endRank (round : Nat) (found : s.threads[index]? = some ⟨round, .rankBarrier⟩) :
      Effect config s index (s.endRank index round)
  | follow (round : Nat) (found : s.threads[index]? = some ⟨round, .waitRank⟩)
      (fewer : s.count2 ≠ config.threads) : Effect config s index (s.moveTo index ⟨round, .load2⟩)
  | read2 (round : Nat) (found : s.threads[index]? = some ⟨round, .load2⟩) :
      Effect config s index (s.moveTo index ⟨round, .exchange2 s.count2⟩)
  | retry2 (round ex : Nat) (found : s.threads[index]? = some ⟨round, .exchange2 ex⟩) :
      Effect config s index (s.moveTo index ⟨round, .load2⟩)
  | depart (round : Nat) (found : s.threads[index]? = some ⟨round, .exchange2 s.count2⟩) :
      Effect config s index (s.countDown index round s.count2)
  | reset2 (round : Nat) (found : s.threads[index]? = some ⟨round, .store2⟩) :
      Effect config s index (s.resetCount2 config index round)
  | leave (round : Nat) (found : s.threads[index]? = some ⟨round, .wait2⟩)
      (all : s.count2 = config.threads) :
      Effect config s index (s.moveTo index ⟨round + 1, .outside⟩)

variable {config : Config} {s t : State} {action : Action} {index k : Nat}

theorem step_effect (stepped : step config s action = some t) :
    Effect config s action.thread t := by
  unfold step at stepped
  cases found : s.threads[action.thread]? with
  | none => simp [found] at stepped
  | some thread =>
    obtain ⟨round, location⟩ := thread
    cases location <;> simp only [found] at stepped
    case outside =>
        split at stepped
        · cases stepped; exact .enter round found ‹_›
        · cases stepped
    case load1 => cases stepped; exact .read1 round found
    case exchange1 expected =>
        split at stepped
        · cases stepped; exact .retry1 round expected found
        · rename_i succeeds
          obtain ⟨-, expects⟩ := not_or.mp succeeds
          cases not_not.mp expects
          cases stepped
          exact .arrive round found
    case store1 => cases stepped; exact .reset round found
    case wait1 =>
        split at stepped
        · cases stepped; exact .pass round found ‹_›
        · cases stepped; exact .same
    case rankBarrier => cases stepped; exact .endRank round found
    case waitRank =>
        split at stepped
        · cases stepped; exact .same
        · cases stepped; exact .follow round found ‹_›
    case load2 => cases stepped; exact .read2 round found
    case exchange2 ex =>
        split at stepped
        · cases stepped; exact .retry2 round ex found
        · rename_i succeeds
          obtain ⟨-, expects⟩ := not_or.mp succeeds
          cases not_not.mp expects
          cases stepped
          exact .depart round found
    case store2 => cases stepped; exact .reset2 round found
    case wait2 =>
        split at stepped
        · cases stepped; exact .leave round found ‹_›
        · cases stepped; exact .same

def Location.waiting1 : Location → Bool
  | .wait1 => true
  | _ => false

def Location.storing1 : Location → Bool
  | .store1 => true
  | _ => false

def Location.ranking : Location → Bool
  | .rankBarrier => true
  | _ => false

def Location.departing : Location → Bool
  | .load2 | .exchange2 _ => true
  | _ => false

def Location.waiting2 : Location → Bool
  | .wait2 => true
  | _ => false

def Location.storing2 : Location → Bool
  | .store2 => true
  | _ => false

def State.tally (s : State) (kind : Location → Bool) : Nat :=
  s.threads.countP fun thread => kind thread.location

theorem tally_moved {thread moved : Thread} (kind : Location → Bool)
    (threads : t.threads = s.threads.set index moved)
    (found : s.threads[index]? = some thread) :
    t.tally kind + (kind thread.location).toNat = s.tally kind + (kind moved.location).toNat := by
  rw [State.tally, threads]
  exact countP_set_add (fun thread => kind thread.location) found moved

theorem tally_pos {thread : Thread} (kind : Location → Bool) (found : thread ∈ s.threads)
    (here : kind thread.location = true) : 0 < s.tally kind :=
  List.countP_pos_iff.mpr ⟨thread, found, here⟩

theorem tally_eq_zero {kind : Location → Bool}
    (none : ∀ thread ∈ s.threads, kind thread.location = false) : s.tally kind = 0 :=
  List.countP_eq_zero.mpr fun thread found => by simp [none thread found]

theorem all_of_tally (kind : Location → Bool) (all : s.tally kind = s.threads.length) :
    ∀ thread ∈ s.threads, kind thread.location = true :=
  List.countP_eq_length.mp all

theorem tally_or {first second : Location → Bool} (apart : ∀ location, ¬(first location ∧ second location)) :
    s.tally (fun location => first location || second location) = s.tally first + s.tally second := by
  unfold State.tally
  induction s.threads with
  | nil => rfl
  | cons head tail ih =>
    have here := apart head.location
    rw [List.countP_cons, List.countP_cons, List.countP_cons, ih]
    cases one : first head.location <;> cases two : second head.location <;>
      simp_all <;> omega

/-- Where a thread can be while round `k` gathers; a thread may still be about to
leave the round before. -/
inductive Gathers (config : Config) (k : Nat) : Thread → Prop
  | rest : Gathers config k ⟨k, .outside⟩
  | load (more : k < config.rounds) : Gathers config k ⟨k, .load1⟩
  | exchange (more : k < config.rounds) (expected : Nat) : Gathers config k ⟨k, .exchange1 expected⟩
  | wait (more : k < config.rounds) : Gathers config k ⟨k, .wait1⟩
  | late {round : Nat} (before : round + 1 = k) : Gathers config k ⟨round, .wait2⟩

structure Gathering (config : Config) (k : Nat) (s : State) : Prop where
  placed : ∀ thread ∈ s.threads, Gathers config k thread
  count : s.count = s.tally Location.waiting1
  short : s.count < config.threads
  count2 : s.count2 = config.threads
  begun : s.rankBegun k = 0
  ended : s.rankEnded k = 0

structure Filled (config : Config) (k : Nat) (s : State) : Prop where
  placed : ∀ thread ∈ s.threads, thread = ⟨k, .wait1⟩ ∨ thread = ⟨k, .store1⟩
  single : s.tally Location.storing1 = 1
  count : s.count = config.threads
  count2 : s.count2 = config.threads
  begun : s.rankBegun k = 0
  ended : s.rankEnded k = 0

inductive Releases (config : Config) (k : Nat) : Thread → Prop
  | wait : Releases config k ⟨k, .wait1⟩
  | rank (full : config.full k = true) : Releases config k ⟨k, .rankBarrier⟩
  | waitRank (full : config.full k = true) : Releases config k ⟨k, .waitRank⟩
  | load : Releases config k ⟨k, .load2⟩
  | exchange (ex : Nat) : Releases config k ⟨k, .exchange2 ex⟩
  | done : Releases config k ⟨k, .wait2⟩

/-- Until the first thread has counted down in a round of `operator()`, only the
thread that runs `rank_barrier` is past the wait for it. -/
structure Releasing (config : Config) (k : Nat) (s : State) : Prop where
  placed : ∀ thread ∈ s.threads, Releases config k thread
  count : s.count = 0
  count2 : s.count2 + s.tally Location.waiting2 = config.threads
  remaining : 0 < s.count2
  begun : s.rankBegun k = (config.full k).toNat
  ended : s.rankEnded k + s.tally Location.ranking = (config.full k).toNat
  leading : config.full k = true → s.tally Location.waiting2 = 0 →
    s.tally Location.ranking + s.tally Location.departing = 1
  led : 0 < s.tally Location.waiting2 → s.tally Location.ranking = 0

structure Draining (config : Config) (k : Nat) (s : State) : Prop where
  placed : ∀ thread ∈ s.threads, thread = ⟨k, .wait2⟩ ∨ thread = ⟨k, .store2⟩
  single : s.tally Location.storing2 = 1
  count : s.count = 0
  count2 : s.count2 = 0
  begun : s.rankBegun k = (config.full k).toNat
  ended : s.rankEnded k = (config.full k).toNat

structure Current (config : Config) (k : Nat) (s : State) : Prop where
  size : s.threads.length = config.threads
  past : ∀ round < k,
    s.rankBegun round = (config.full round).toNat ∧ s.rankEnded round = (config.full round).toNat
  future : ∀ round, k < round → s.rankBegun round = 0 ∧ s.rankEnded round = 0
  phase : Gathering config k s ∨ Filled config k s ∨ Releasing config k s ∨ Draining config k s

theorem placed_moved {Holds : Thread → Prop} {moved : Thread}
    (threads : t.threads = s.threads.set index moved)
    (placed : ∀ thread ∈ s.threads, Holds thread) (here : Holds moved) :
    ∀ thread ∈ t.threads, Holds thread := by
  intro thread found
  rw [threads] at found
  rcases List.mem_or_eq_of_mem_set found with old | rfl
  · exact placed thread old
  · exact here

theorem Gathering.move (gathering : Gathering config k s) {thread moved : Thread}
    (found : s.threads[index]? = some thread) (here : Gathers config k moved)
    (before : thread.location.waiting1 = false) (after : moved.location.waiting1 = false) :
    Gathering config k (s.moveTo index moved) where
  placed := placed_moved rfl gathering.placed here
  count := by
    have counted := tally_moved (t := s.moveTo index moved) Location.waiting1 rfl found
    simp only [before, after, Bool.toNat_false, add_zero] at counted
    exact gathering.count.trans counted.symm
  short := gathering.short
  count2 := gathering.count2
  begun := gathering.begun
  ended := gathering.ended

theorem Gathering.arrive (gathering : Gathering config k s) {expected : Nat}
    (size : s.threads.length = config.threads) (more : k < config.rounds)
    (found : s.threads[index]? = some ⟨k, .exchange1 expected⟩) :
    Gathering config k (s.countUp config index k s.count) ∨
      Filled config k (s.countUp config index k s.count) := by
  have short := gathering.short
  by_cases last : s.count = config.threads - 1
  · -- the others have all been counted, so they wait
    right
    have threads : (s.countUp config index k s.count).threads =
        s.threads.set index ⟨k, .store1⟩ := by simp [State.countUp, last]
    have waiting := tally_moved Location.waiting1 threads found
    have storing := tally_moved Location.storing1 threads found
    have unset : s.tally Location.storing1 = 0 := tally_eq_zero fun thread member => by
      cases gathering.placed thread member <;> rfl
    simp only [Location.waiting1, Location.storing1, Bool.toNat_false, Bool.toNat_true, add_zero,
      unset, zero_add] at waiting storing
    have every := all_of_tally (s := s.countUp config index k s.count)
      (fun location => location.waiting1 || location.storing1) (by
        rw [tally_or (by intro location; cases location <;> simp [Location.waiting1, Location.storing1]),
          waiting, storing, ← gathering.count, threads, List.length_set, size]
        omega)
    refine ⟨fun thread member => ?_, storing, ?_, gathering.count2, gathering.begun, gathering.ended⟩
    · have here := every thread member
      rw [threads] at member
      rcases List.mem_or_eq_of_mem_set member with old | rfl
      · cases gathering.placed thread old <;> simp_all [Location.waiting1, Location.storing1]
      · exact .inr rfl
    · simp only [State.countUp_count]
      omega
  · left
    have threads : (s.countUp config index k s.count).threads =
        s.threads.set index ⟨k, .wait1⟩ := by simp [State.countUp, last]
    have waiting := tally_moved Location.waiting1 threads found
    simp only [Location.waiting1, Bool.toNat_false, Bool.toNat_true, add_zero] at waiting
    exact {
      placed := placed_moved threads gathering.placed (.wait more)
      count := by rw [State.countUp_count, waiting, gathering.count]
      short := by simp only [State.countUp_count]; omega
      count2 := gathering.count2
      begun := gathering.begun
      ended := gathering.ended }

theorem Gathering.effect (gathering : Gathering config k s)
    (size : s.threads.length = config.threads) (effect : Effect config s index t) :
    Gathering config k t ∨ Filled config k t := by
  have here {thread : Thread} (found : s.threads[index]? = some thread) : Gathers config k thread :=
    gathering.placed thread (List.mem_of_getElem? found)
  cases effect with
  | same => exact .inl gathering
  | enter round found more => cases here found; exact .inl (gathering.move found (.load more) rfl rfl)
  | read1 round found =>
    cases here found with
    | load more => exact .inl (gathering.move found (.exchange more _) rfl rfl)
  | retry1 round expected found =>
    cases here found with
    | exchange more => exact .inl (gathering.move found (.load more) rfl rfl)
  | arrive round found =>
    cases here found with
    | exchange more => exact gathering.arrive size more found
  | pass round found zero =>
    have waits := tally_pos Location.waiting1 (List.mem_of_getElem? found) rfl
    rw [← gathering.count, zero] at waits
    cases waits
  | leave round found =>
    cases here found with
    | late before => subst before; exact .inl (gathering.move found .rest rfl rfl)
  | reset round found | endRank round found | follow round found | read2 round found
  | retry2 round ex found | depart round found | reset2 round found => nomatch here found

/-- The reset lets the threads out, and in a round of `operator()` the one that
made it calls `rank_barrier`. -/
theorem Filled.reset (filled : Filled config k s) (positive : 0 < config.threads)
    (found : s.threads[index]? = some ⟨k, .store1⟩) :
    Releasing config k (s.resetCount config index k) := by
  have none (kind : Location → Bool) (wait : kind .wait1 = false) (store : kind .store1 = false) :
      s.tally kind = 0 := tally_eq_zero fun thread member => by
    rcases filled.placed thread member with rfl | rfl
    · exact wait
    · exact store
  have moved (kind : Location → Bool) := tally_moved (t := s.resetCount config index k) kind rfl found
  have storing := moved Location.storing1
  have ranking := moved Location.ranking
  have departing := moved Location.departing
  have waiting := moved Location.waiting2
  rw [filled.single] at storing
  rw [none Location.ranking rfl rfl] at ranking
  rw [none Location.departing rfl rfl] at departing
  rw [none Location.waiting2 rfl rfl] at waiting
  have only : ∀ thread ∈ (s.resetCount config index k).threads, thread.location ≠ .store1 := by
    intro thread member stores
    have some : 0 < (s.resetCount config index k).tally Location.storing1 :=
      tally_pos _ member (by rw [stores]; rfl)
    cases full : config.full k <;> simp [full, Location.storing1] at storing <;> omega
  refine {
    placed := fun thread member => ?_
    count := rfl
    count2 := ?_
    remaining := filled.count2 ▸ positive
    begun := ?_
    ended := ?_
    leading := fun full _ => ?_
    led := fun some => ?_ }
  · have apart := only thread member
    rcases List.mem_or_eq_of_mem_set member with old | rfl
    · rcases filled.placed thread old with rfl | rfl
      · exact .wait
      · exact absurd rfl apart
    · cases full : config.full k
      · exact .load
      · exact .rank full
  all_goals cases full : config.full k <;>
    simp_all [Location.waiting2, Location.ranking, Location.departing, filled.count2, filled.begun,
      filled.ended]

theorem Filled.effect (filled : Filled config k s) (positive : 0 < config.threads)
    (effect : Effect config s index t) : Filled config k t ∨ Releasing config k t := by
  have here {thread : Thread} (found : s.threads[index]? = some thread) :
      thread = ⟨k, .wait1⟩ ∨ thread = ⟨k, .store1⟩ :=
    filled.placed thread (List.mem_of_getElem? found)
  cases effect with
  | same => exact .inl filled
  | reset round found =>
    rcases here found with waits | stores
    · cases waits
    · cases stores; exact .inr (filled.reset positive found)
  | pass round found zero => exact absurd zero (by rw [filled.count]; omega)
  | enter round found | read1 round found | retry1 round expected found | arrive round found
  | endRank round found | follow round found | read2 round found | retry2 round ex found
  | depart round found | reset2 round found | leave round found =>
    rcases here found with other | other <;> cases other

theorem Releasing.move (releasing : Releasing config k s) {thread moved : Thread}
    (found : s.threads[index]? = some thread) (here : Releases config k moved)
    (waits : thread.location.waiting2 = false ∧ moved.location.waiting2 = false)
    (ranks : thread.location.ranking = false ∧ moved.location.ranking = false)
    (departs : config.full k = true → s.tally Location.waiting2 = 0 →
      moved.location.departing = thread.location.departing) :
    Releasing config k (s.moveTo index moved) := by
  have counted (kind : Location → Bool) (same : kind moved.location = kind thread.location) :
      (s.moveTo index moved).tally kind = s.tally kind := by
    have counts := tally_moved (t := s.moveTo index moved) kind rfl found
    rw [same] at counts
    omega
  have waiting := counted _ (waits.2.trans waits.1.symm)
  have ranking := counted _ (ranks.2.trans ranks.1.symm)
  refine {
    placed := placed_moved rfl releasing.placed here
    count := releasing.count
    count2 := by rw [waiting]; exact releasing.count2
    remaining := releasing.remaining
    begun := releasing.begun
    ended := by rw [ranking]; exact releasing.ended
    leading := fun full zero => ?_
    led := by rw [waiting, ranking]; exact releasing.led }
  rw [waiting] at zero
  rw [ranking, counted _ (departs full zero)]
  exact releasing.leading full zero

theorem Releasing.endRank (releasing : Releasing config k s)
    (found : s.threads[index]? = some ⟨k, .rankBarrier⟩) :
    Releasing config k (s.endRank index k) := by
  have moved (kind : Location → Bool) := tally_moved (t := s.endRank index k) kind rfl found
  have waiting := moved Location.waiting2
  have ranking := moved Location.ranking
  have departing := moved Location.departing
  simp only [Location.waiting2, Location.ranking, Location.departing, Bool.toNat_false,
    Bool.toNat_true, add_zero] at waiting ranking departing
  refine {
    placed := placed_moved rfl releasing.placed .load
    count := releasing.count
    count2 := by rw [waiting]; exact releasing.count2
    remaining := releasing.remaining
    begun := releasing.begun
    ended := ?_
    leading := fun full zero => ?_
    led := fun some => ?_ }
  · have ended := releasing.ended
    simp only [State.endRank_rankEnded, Function.update_self]
    omega
  · have leading := releasing.leading full (waiting ▸ zero)
    omega
  · have led := releasing.led (waiting ▸ some)
    omega

theorem Releasing.rank_over (releasing : Releasing config k s) {round ex : Nat}
    (found : s.threads[index]? = some ⟨round, .exchange2 ex⟩) :
    s.tally Location.ranking = 0 := by
  rcases Nat.eq_zero_or_pos (s.tally Location.waiting2) with zero | some
  · cases full : config.full k with
    | false =>
      have ended := releasing.ended
      rw [full, Bool.toNat_false] at ended
      omega
    | true =>
      have departing := tally_pos Location.departing (List.mem_of_getElem? found) rfl
      have leading := releasing.leading full zero
      omega
  · exact releasing.led some

theorem Releasing.depart (releasing : Releasing config k s)
    (size : s.threads.length = config.threads)
    (found : s.threads[index]? = some ⟨k, .exchange2 s.count2⟩) :
    Releasing config k (s.countDown index k s.count2) ∨
      Draining config k (s.countDown index k s.count2) := by
  have ranks := releasing.rank_over found
  have ended := releasing.ended
  have remaining := releasing.remaining
  have count2 := releasing.count2
  by_cases last : s.count2 = 1
  · -- the others have all counted down, so they wait
    right
    have threads : (s.countDown index k s.count2).threads =
        s.threads.set index ⟨k, .store2⟩ := by simp [State.countDown, last]
    have waiting := tally_moved Location.waiting2 threads found
    have storing := tally_moved Location.storing2 threads found
    have unset : s.tally Location.storing2 = 0 := tally_eq_zero fun thread member => by
      cases releasing.placed thread member <;> rfl
    simp only [Location.waiting2, Location.storing2, Bool.toNat_false, Bool.toNat_true, add_zero,
      unset, zero_add] at waiting storing
    have every := all_of_tally (s := s.countDown index k s.count2)
      (fun location => location.waiting2 || location.storing2) (by
        rw [tally_or (by intro location; cases location <;> simp [Location.waiting2, Location.storing2]),
          waiting, storing, threads, List.length_set, size]
        omega)
    refine {
      placed := fun thread member => ?_
      single := storing
      count := releasing.count
      count2 := by rw [State.countDown_count2, last]
      begun := releasing.begun
      ended := by rw [ranks] at ended; exact ended }
    have here := every thread member
    rw [threads] at member
    rcases List.mem_or_eq_of_mem_set member with old | rfl
    · cases releasing.placed thread old <;> simp_all [Location.waiting2, Location.storing2]
    · exact .inr rfl
  · left
    have threads : (s.countDown index k s.count2).threads =
        s.threads.set index ⟨k, .wait2⟩ := by simp [State.countDown, last]
    have waiting := tally_moved Location.waiting2 threads found
    have ranking := tally_moved Location.ranking threads found
    simp only [Location.waiting2, Location.ranking, Bool.toNat_false, Bool.toNat_true,
      add_zero] at waiting ranking
    exact {
      placed := placed_moved threads releasing.placed .done
      count := releasing.count
      count2 := by simp only [State.countDown_count2]; omega
      remaining := by simp only [State.countDown_count2]; omega
      begun := releasing.begun
      ended := by rw [ranking]; exact ended
      leading := fun _ zero => by omega
      led := fun _ => by rw [ranking, ranks] }

theorem Releasing.effect (releasing : Releasing config k s)
    (size : s.threads.length = config.threads) (effect : Effect config s index t) :
    Releasing config k t ∨ Draining config k t := by
  have here {thread : Thread} (found : s.threads[index]? = some thread) : Releases config k thread :=
    releasing.placed thread (List.mem_of_getElem? found)
  cases effect with
  | same => exact .inl releasing
  | pass round found zero =>
    cases here found
    left
    cases full : config.full k with
    | false =>
      exact releasing.move found .load ⟨rfl, rfl⟩ ⟨rfl, rfl⟩ fun other => by simp [full] at other
    | true => exact releasing.move found (.waitRank full) ⟨rfl, rfl⟩ ⟨rfl, rfl⟩ fun _ _ => rfl
  | endRank round found => cases here found; exact .inl (releasing.endRank found)
  | follow round found fewer =>
    cases here found
    refine .inl (releasing.move found .load ⟨rfl, rfl⟩ ⟨rfl, rfl⟩ fun _ zero => ?_)
    have count2 := releasing.count2
    omega
  | read2 round found =>
    cases here found
    exact .inl (releasing.move found (.exchange _) ⟨rfl, rfl⟩ ⟨rfl, rfl⟩ fun _ _ => rfl)
  | retry2 round ex found =>
    cases here found
    exact .inl (releasing.move found .load ⟨rfl, rfl⟩ ⟨rfl, rfl⟩ fun _ _ => rfl)
  | depart round found => cases here found; exact releasing.depart size found
  | leave round found all =>
    have waits := tally_pos Location.waiting2 (List.mem_of_getElem? found) rfl
    have count2 := releasing.count2
    omega
  | enter round found | read1 round found | retry1 round expected found | arrive round found
  | reset round found | reset2 round found => nomatch here found

theorem Draining.reset (draining : Draining config k s) (positive : 0 < config.threads)
    (fresh : s.rankBegun (k + 1) = 0 ∧ s.rankEnded (k + 1) = 0)
    (found : s.threads[index]? = some ⟨k, .store2⟩) :
    Gathering config (k + 1) (s.resetCount2 config index k) := by
  have storing := tally_moved (t := s.resetCount2 config index k) Location.storing2 rfl found
  simp only [Location.storing2, Bool.toNat_true, Bool.toNat_false, draining.single] at storing
  have placed : ∀ thread ∈ (s.resetCount2 config index k).threads, Gathers config (k + 1) thread := by
    intro thread member
    rcases List.mem_or_eq_of_mem_set member with old | rfl
    · rcases draining.placed thread old with rfl | rfl
      · exact .late rfl
      · have another := tally_pos Location.storing2 member rfl
        omega
    · exact .rest
  refine ⟨placed, ?_, draining.count ▸ positive, rfl, fresh.1, fresh.2⟩
  rw [tally_eq_zero]
  · exact draining.count
  · intro thread member
    rcases List.mem_or_eq_of_mem_set member with old | rfl
    · rcases draining.placed thread old with rfl | rfl <;> rfl
    · rfl

theorem Draining.effect (draining : Draining config k s) (positive : 0 < config.threads)
    (fresh : s.rankBegun (k + 1) = 0 ∧ s.rankEnded (k + 1) = 0)
    (effect : Effect config s index t) : Draining config k t ∨ Gathering config (k + 1) t ∧
      t.rankBegun = s.rankBegun ∧ t.rankEnded = s.rankEnded := by
  have here {thread : Thread} (found : s.threads[index]? = some thread) :
      thread = ⟨k, .wait2⟩ ∨ thread = ⟨k, .store2⟩ :=
    draining.placed thread (List.mem_of_getElem? found)
  cases effect with
  | same => exact .inl draining
  | reset2 round found =>
    rcases here found with waits | stores
    · cases waits
    · cases stores; exact .inr ⟨draining.reset positive fresh found, rfl, rfl⟩
  | leave round found all =>
    have count2 := draining.count2
    omega
  | enter round found | read1 round found | retry1 round expected found | arrive round found
  | reset round found | pass round found | endRank round found | follow round found
  | read2 round found | retry2 round ex found | depart round found =>
    rcases here found with other | other <;> cases other

/-- The threads of the round in progress and those still about to leave the one before. -/
theorem Current.round_of (current : Current config k s) {thread : Thread}
    (found : thread ∈ s.threads) :
    thread.round = k ∨ thread.round + 1 = k ∧ thread.location = .wait2 := by
  rcases current.phase with gathering | filled | releasing | draining
  · cases gathering.placed thread found with
    | late before => exact .inr ⟨before, rfl⟩
    | _ => exact .inl rfl
  · rcases filled.placed thread found with rfl | rfl <;> exact .inl rfl
  · cases releasing.placed thread found <;> exact .inl rfl
  · rcases draining.placed thread found with rfl | rfl <;> exact .inl rfl

theorem Current.rank_same (current : Current config k s) (effect : Effect config s index t)
    {other : Nat} (apart : other ≠ k) :
    t.rankBegun other = s.rankBegun other ∧ t.rankEnded other = s.rankEnded other := by
  cases effect with
  | reset round found =>
    rcases current.round_of (List.mem_of_getElem? found) with rfl | ⟨-, waits⟩
    · refine ⟨?_, rfl⟩
      rw [State.resetCount_rankBegun]
      split
      · rw [Function.update_of_ne apart]
      · rfl
    · cases waits
  | endRank round found =>
    rcases current.round_of (List.mem_of_getElem? found) with rfl | ⟨-, waits⟩
    · exact ⟨rfl, Function.update_of_ne apart ..⟩
    · cases waits
  | _ => exact ⟨rfl, rfl⟩

theorem length_of_effect (effect : Effect config s index t) :
    t.threads.length = s.threads.length := by
  cases effect with
  | same => rfl
  | _ => exact List.length_set

theorem Current.effect (current : Current config k s) (positive : 0 < config.threads)
    (effect : Effect config s index t) : ∃ round, Current config round t := by
  have size := (length_of_effect effect).trans current.size
  have past (round : Nat) (before : round < k) : t.rankBegun round = (config.full round).toNat ∧
      t.rankEnded round = (config.full round).toNat := by
    obtain ⟨begun, ended⟩ := current.rank_same effect (Nat.ne_of_lt before)
    rw [begun, ended]
    exact current.past round before
  have future (round : Nat) (after : k < round) :
      t.rankBegun round = 0 ∧ t.rankEnded round = 0 := by
    obtain ⟨begun, ended⟩ := current.rank_same effect (Nat.ne_of_gt after)
    rw [begun, ended]
    exact current.future round after
  rcases current.phase with gathering | filled | releasing | draining
  · rcases gathering.effect current.size effect with still | next
    · exact ⟨k, size, past, future, .inl still⟩
    · exact ⟨k, size, past, future, .inr (.inl next)⟩
  · rcases filled.effect positive effect with still | next
    · exact ⟨k, size, past, future, .inr (.inl still)⟩
    · exact ⟨k, size, past, future, .inr (.inr (.inl next))⟩
  · rcases releasing.effect current.size effect with still | next
    · exact ⟨k, size, past, future, .inr (.inr (.inl still))⟩
    · exact ⟨k, size, past, future, .inr (.inr (.inr next))⟩
  · rcases draining.effect positive (current.future _ (Nat.lt_succ_self k)) effect with
      still | ⟨next, begun, ended⟩
    · exact ⟨k, size, past, future, .inr (.inr (.inr still))⟩
    · refine ⟨k + 1, size, fun round before => ?_, fun round after => future round (by omega), .inl next⟩
      rcases Nat.lt_succ_iff_lt_or_eq.mp before with earlier | rfl
      · exact past round earlier
      · rw [begun, ended]
        exact ⟨draining.begun, draining.ended⟩

theorem current_initial (positive : 0 < config.threads) : Current config 0 (State.initial config) where
  size := List.length_replicate
  past := fun round before => absurd before (Nat.not_lt_zero round)
  future := fun _ _ => ⟨rfl, rfl⟩
  phase := by
    refine .inl ⟨fun thread found => ?_, ?_, positive, rfl, rfl, rfl⟩
    · cases List.eq_of_mem_replicate found
      exact .rest
    · rw [tally_eq_zero]
      · rfl
      · intro thread found
        cases List.eq_of_mem_replicate found
        rfl

theorem current_of_reaches (positive : 0 < config.threads)
    (reached : Reaches (step config) (fun _ _ => True) (State.initial config) s) :
    ∃ round, Current config round s :=
  Reaches.invariant (fun s => ∃ round, Current config round s) ⟨0, current_initial positive⟩
    (fun _ _ _ ⟨_, current⟩ _ stepped => current.effect positive (step_effect stepped)) reached

def Thread.Unfinished (config : Config) (thread : Thread) : Prop :=
  thread.round < config.rounds ∨ thread.location ≠ .outside

def State.Spinning (config : Config) (s : State) (thread : Thread) : Prop :=
  match thread.location with
  | .wait1 => s.count ≠ 0
  | .waitRank => s.count2 = config.threads
  | .wait2 => s.count2 ≠ config.threads
  | _ => False

def Thread.Entered (k : Nat) (thread : Thread) : Prop :=
  k < thread.round ∨ thread.round = k ∧ thread.location ≠ .outside

/-- The guarantees in one state; that a thread has returned from its call of round
`k` is `k < thread.round`. -/
structure State.BarrierLaw (config : Config) (s : State) : Prop where
  together : ∀ k, (∃ thread ∈ s.threads, k < thread.round) →
    ∀ thread ∈ s.threads, thread.Entered k
  ranked : ∀ k, config.full k = true → s.rankEnded k ≤ s.rankBegun k ∧ s.rankBegun k ≤ 1 ∧
    ((∃ thread ∈ s.threads, k < thread.round) → s.rankBegun k = 1 ∧ s.rankEnded k = 1)
  unranked : ∀ k, config.full k = false → s.rankBegun k = 0
  rearmed : ∀ k, (∀ thread ∈ s.threads, k < thread.round ∧ ¬thread.Entered (k + 1)) →
    s.count = 0 ∧ s.count2 = config.threads
  live : (∃ thread ∈ s.threads, thread.Unfinished config) →
    ∃ thread ∈ s.threads, thread.Unfinished config ∧ ¬s.Spinning config thread

theorem Current.round_le (current : Current config k s) {thread : Thread}
    (found : thread ∈ s.threads) : thread.round ≤ k := by
  rcases current.round_of found with here | ⟨before, -⟩ <;> omega

theorem Current.rank_bounds (current : Current config k s) (round : Nat) :
    s.rankEnded round ≤ s.rankBegun round ∧ s.rankBegun round ≤ (config.full round).toNat := by
  rcases Nat.lt_trichotomy round k with before | rfl | after
  · obtain ⟨begun, ended⟩ := current.past round before
    omega
  · rcases current.phase with gathering | filled | releasing | draining
    · rw [gathering.begun, gathering.ended]; omega
    · rw [filled.begun, filled.ended]; omega
    · have ended := releasing.ended
      rw [releasing.begun]
      omega
    · rw [draining.begun, draining.ended]; omega
  · obtain ⟨begun, ended⟩ := current.future round after
    omega

theorem Current.together (current : Current config k s) {round : Nat} {thread other : Thread}
    (found : thread ∈ s.threads) (returned : round < thread.round) (member : other ∈ s.threads) :
    other.Entered round := by
  have upto := current.round_le found
  rcases current.round_of member with here | ⟨before, waits⟩
  · exact .inl (by omega)
  · rcases Nat.lt_or_ge round other.round with earlier | here
    · exact .inl earlier
    · exact .inr ⟨by omega, by rw [waits]; nofun⟩

/-- Between two rounds the counters are as the constructor set them. -/
theorem Current.rearmed (current : Current config k s) (positive : 0 < config.threads)
    (between : ∀ thread ∈ s.threads, thread.location = .outside) :
    s.count = 0 ∧ s.count2 = config.threads := by
  obtain ⟨thread, found⟩ : ∃ thread, thread ∈ s.threads :=
    List.exists_mem_of_length_pos (by rw [current.size]; exact positive)
  have rests := between thread found
  rcases current.phase with gathering | filled | releasing | draining
  · refine ⟨gathering.count.trans (tally_eq_zero fun other member => ?_), gathering.count2⟩
    rw [between other member]
    rfl
  · rcases filled.placed thread found with rfl | rfl <;> cases rests
  · cases releasing.placed thread found <;> cases rests
  · rcases draining.placed thread found with rfl | rfl <;> cases rests

theorem exists_of_tally {kind : Location → Bool} (some : 0 < s.tally kind) :
    ∃ thread ∈ s.threads, kind thread.location = true :=
  List.countP_pos_iff.mp some

theorem Gathering.live (gathering : Gathering config k s)
    (size : s.threads.length = config.threads)
    (unfinished : ∃ thread ∈ s.threads, thread.Unfinished config) :
    ∃ thread ∈ s.threads, thread.Unfinished config ∧ ¬s.Spinning config thread := by
  by_contra stuck
  push Not at stuck
  -- whoever is not finished waits for the count, so the round is still to be entered
  have waiting {thread : Thread} (found : thread ∈ s.threads)
      (left : thread.Unfinished config) : k < config.rounds ∧ thread.location.waiting1 = true := by
    have spins := stuck thread found left
    cases gathering.placed thread found with
    | wait more => exact ⟨more, rfl⟩
    | late => exact absurd gathering.count2 spins
    | _ => exact absurd spins id
  obtain ⟨thread, found, left⟩ := unfinished
  obtain ⟨more, -⟩ := waiting found left
  have every : s.tally Location.waiting1 = s.threads.length :=
    List.countP_eq_length.mpr fun other member => by
      refine (waiting member ?_).2
      cases gathering.placed other member with
      | rest => exact .inl more
      | _ => exact .inr nofun
  have count := gathering.count
  have short := gathering.short
  omega

theorem Releasing.live (releasing : Releasing config k s)
    (size : s.threads.length = config.threads) (positive : 0 < config.threads) :
    ∃ thread ∈ s.threads, thread.location ≠ .outside ∧ ¬s.Spinning config thread := by
  by_contra stuck
  push Not at stuck
  have spinning {thread : Thread} (found : thread ∈ s.threads) :
      config.full k = true ∧ thread.location = .waitRank ∧ s.count2 = config.threads ∨
        thread.location.waiting2 = true := by
    have spins := stuck thread found
    cases releasing.placed thread found with
    | wait => exact absurd releasing.count (spins nofun)
    | waitRank full => exact .inl ⟨full, rfl, spins nofun⟩
    | done => exact .inr rfl
    | _ => exact absurd (spins nofun) id
  have count2 := releasing.count2
  have remaining := releasing.remaining
  rcases Nat.eq_zero_or_pos (s.tally Location.waiting2) with zero | some
  · -- nobody has counted down, so the thread that leads has not reached a loop
    have none {thread : Thread} (found : thread ∈ s.threads) :
        config.full k = true ∧ thread.location = .waitRank := by
      rcases spinning found with ⟨full, waits, -⟩ | waits
      · exact ⟨full, waits⟩
      · have done := tally_pos Location.waiting2 found waits
        omega
    obtain ⟨thread, found⟩ : ∃ thread, thread ∈ s.threads :=
      List.exists_mem_of_length_pos (by rw [size]; exact positive)
    have leading := releasing.leading (none found).1 zero
    rw [tally_eq_zero fun other member => by rw [(none member).2]; rfl,
      tally_eq_zero fun other member => by rw [(none member).2]; rfl] at leading
    cases leading
  · -- somebody has, so the others no longer wait for the rank barrier
    have every : s.tally Location.waiting2 = s.threads.length :=
      List.countP_eq_length.mpr fun other member => by
        rcases spinning member with ⟨-, -, all⟩ | waits
        · omega
        · exact waits
    omega

theorem Current.live (current : Current config k s) (positive : 0 < config.threads)
    (unfinished : ∃ thread ∈ s.threads, thread.Unfinished config) :
    ∃ thread ∈ s.threads, thread.Unfinished config ∧ ¬s.Spinning config thread := by
  rcases current.phase with gathering | filled | releasing | draining
  · exact gathering.live current.size unfinished
  · obtain ⟨thread, found, stores⟩ : ∃ thread ∈ s.threads, thread.location.storing1 = true :=
      exists_of_tally (by rw [filled.single]; decide)
    rcases filled.placed thread found with rfl | rfl
    · cases stores
    · exact ⟨_, found, .inr nofun, id⟩
  · obtain ⟨thread, found, inside, moves⟩ := releasing.live current.size positive
    exact ⟨thread, found, .inr inside, moves⟩
  · obtain ⟨thread, found, stores⟩ : ∃ thread ∈ s.threads, thread.location.storing2 = true :=
      exists_of_tally (by rw [draining.single]; decide)
    rcases draining.placed thread found with rfl | rfl
    · cases stores
    · exact ⟨_, found, .inr nofun, id⟩

/-- For every number of threads and rounds and every interleaving. -/
theorem barrier_lawful (positive : 0 < config.threads)
    (reached : Reaches (step config) (fun _ _ => True) (State.initial config) s) :
    s.BarrierLaw config := by
  obtain ⟨k, current⟩ := current_of_reaches positive reached
  refine {
    together := fun round ⟨thread, found, returned⟩ other member =>
      current.together found returned member
    ranked := fun round full => ?_
    unranked := fun round threaded => ?_
    rearmed := fun round between => ?_
    live := current.live positive }
  · obtain ⟨ended, begun⟩ := current.rank_bounds round
    rw [full] at begun
    refine ⟨ended, begun, fun ⟨thread, found, returned⟩ => ?_⟩
    have past := current.past round (Nat.lt_of_lt_of_le returned (current.round_le found))
    rwa [full] at past
  · obtain ⟨-, begun⟩ := current.rank_bounds round
    rw [threaded] at begun
    exact Nat.le_zero.mp begun
  · refine current.rearmed positive fun thread found => ?_
    obtain ⟨returned, early⟩ := between thread found
    by_contra inside
    rcases Nat.lt_or_ge (round + 1) thread.round with later | here
    · exact early (.inl later)
    · exact early (.inr ⟨by omega, inside⟩)

/-- The two threads have been through a round of `thread_barrier` and one of
`operator()`, one exchange having failed. -/
theorem barrier_lawful_two_rounds :
    ∃ s, Reaches (step ⟨2, 2, (· == 1)⟩) (fun _ _ => True) (State.initial ⟨2, 2, (· == 1)⟩) s ∧
      s.threads = [⟨2, .outside⟩, ⟨2, .outside⟩] ∧ s.rankEnded 1 = 1 ∧
      s.BarrierLaw ⟨2, 2, (· == 1)⟩ := by
  obtain ⟨s, reached, threads, ended⟩ := exists_of_run (step ⟨2, 2, (· == 1)⟩) (fun _ _ => True)
      (State.initial ⟨2, 2, (· == 1)⟩)
    ([⟨0, false⟩, ⟨0, false⟩, ⟨0, true⟩, ⟨0, false⟩, ⟨0, false⟩, ⟨1, false⟩, ⟨1, false⟩, ⟨1, false⟩, ⟨1, false⟩, ⟨1, false⟩, ⟨1, false⟩, ⟨0, false⟩, ⟨0, false⟩, ⟨0, false⟩, ⟨0, false⟩, ⟨1, false⟩] ++
      [⟨0, false⟩, ⟨0, false⟩, ⟨0, false⟩, ⟨1, false⟩, ⟨1, false⟩, ⟨1, false⟩, ⟨1, false⟩, ⟨0, false⟩, ⟨0, false⟩, ⟨1, false⟩, ⟨1, false⟩, ⟨1, false⟩, ⟨0, false⟩, ⟨0, false⟩, ⟨0, false⟩, ⟨0, false⟩, ⟨1, false⟩])
    (fun s => s.threads = [⟨2, .outside⟩, ⟨2, .outside⟩] ∧ s.rankEnded 1 = 1) (by decide +kernel)
  exact ⟨s, reached, threads, ended, barrier_lawful (by decide) reached⟩

/-- Both threads have left the first round, and `b_count` is not zero: one of them
was counted for the second round before the other left the first. -/
theorem counted_before_all_left :
    ∃ s, Reaches (step ⟨2, 2, fun _ => false⟩) (fun _ _ => True)
        (State.initial ⟨2, 2, fun _ => false⟩) s ∧
      s.threads = [⟨1, .wait1⟩, ⟨1, .outside⟩] ∧ (∀ thread ∈ s.threads, 0 < thread.round) ∧
      s.count = 1 := by
  obtain ⟨s, reached, threads, count⟩ := exists_of_run (step ⟨2, 2, fun _ => false⟩)
      (fun _ _ => True) (State.initial ⟨2, 2, fun _ => false⟩)
    [⟨0, false⟩, ⟨0, false⟩, ⟨0, false⟩, ⟨1, false⟩, ⟨1, false⟩, ⟨1, false⟩, ⟨1, false⟩, ⟨1, false⟩,
      ⟨1, false⟩, ⟨0, false⟩, ⟨0, false⟩, ⟨0, false⟩, ⟨0, false⟩, ⟨0, false⟩, ⟨0, false⟩,
      ⟨0, false⟩, ⟨1, false⟩]
    (fun s => s.threads = [⟨1, .wait1⟩, ⟨1, .outside⟩] ∧ s.count = 1) (by decide +kernel)
  exact ⟨s, reached, threads, by simp [threads], count⟩

end Oomph.Barrier
