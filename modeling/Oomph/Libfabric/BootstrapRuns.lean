import Oomph.Libfabric.AddressVector
import Oomph.Libfabric.Bootstrap
import Mathlib.Algebra.Order.BigOperators.Group.Finset

namespace Oomph.Libfabric.Bootstrap

open Machine

section Steps

variable {job : Job} {s t : State} {rank : Rank} {q : Nat}

inductive Advances (job : Job) (q : Nat) : Location → Location → Prop
  | start (leaf : 0 < q) : Advances job q .outside (.send 0 false)
  | startRoot (root : ¬ 0 < q) : Advances job q .outside (job.gather 1)
  | post (dst : Nat) : Advances job q (.send dst false) (.send dst true)
  | sent (dst : Nat) : Advances job q (.send dst true) (job.afterSend q dst)
  | recv (src : Nat) (leaf : 0 < q) : Advances job q (.recv src) (job.populate 0)
  | recvRoot (src : Nat) (root : ¬ 0 < q) : Advances job q (.recv src) (job.gather (src + 1))
  | insert (i : Nat) : Advances job q (.insert i) (job.populate (i + 1))
  | terminate (i : Nat) : Advances job q (.insert i) .terminated
  | lookup (i : Nat) : Advances job q (.lookup i) (job.check (i + 1))
  | throw (i : Nat) : Advances job q (.lookup i) .threw

theorem start_advances (job : Job) (q : Nat) (rank : Rank) :
    (job.start q rank).location = .undefined ∨
      Advances job q .outside (job.start q rank).location := by
  unfold Job.start
  by_cases leaf : 0 < q
  · rw [if_pos leaf]
    exact .inr (.start leaf)
  · rw [if_neg leaf]
    split
    · exact .inr (.startRoot leaf)
    · exact .inl rfl

theorem receive_advances (job : Job) (q src : Nat) (rank : Rank) (message : Bytes) :
    (job.receive q src rank message).location = .undefined ∨
      Advances job q (.recv src) (job.receive q src rank message).location := by
  by_cases leaf : 0 < q
  · rw [Job.receive, if_pos leaf, if_pos leaf]
    split
    · exact .inr (.recv src leaf)
    · exact .inl rfl
  · rw [Job.receive, if_neg leaf, if_neg leaf]
    split
    · exact .inr (.recvRoot src leaf)
    · exact .inl rfl

theorem insert_advances (job : Job) (q i : Nat) (ret : Int) (rank : Rank) :
    (job.insert i ret rank).location = .undefined ∨
      Advances job q (.insert i) (job.insert i ret rank).location := by
  unfold Job.insert
  split
  · split
    · exact .inr (.terminate i)
    · exact .inr (.insert i)
  · exact .inl rfl

theorem lookup_advances (job : Job) (q i : Nat) (ret : Int) (addrlen : Nat) (rank : Rank) :
    Advances job q (.lookup i) (job.lookup i ret addrlen rank).location := by
  unfold Job.lookup
  split
  · exact .lookup i
  · exact .throw i

theorem step_advances {action : Action} (taken : step job s action = some t)
    (defined : (t.ranks action.rank).location ≠ .undefined) :
    t.ranks = Function.update s.ranks action.rank (t.ranks action.rank) ∧
      Advances job action.rank (s.ranks action.rank).location (t.ranks action.rank).location := by
  rw [step, Option.ite_none_right_eq_some] at taken
  obtain ⟨_, taken⟩ := taken
  -- the rank that the state is updated with is the one found there afterwards
  have updated {u : State} {moved : Rank} (same : t = u.setRank action.rank moved)
      (ranks : u.ranks = s.ranks)
      (advances : moved.location = .undefined ∨
        Advances job action.rank (s.ranks action.rank).location moved.location) :
      t.ranks = Function.update s.ranks action.rank (t.ranks action.rank) ∧
        Advances job action.rank (s.ranks action.rank).location
          (t.ranks action.rank).location := by
    have own : t.ranks action.rank = moved := by
      rw [same, State.setRank_ranks, Function.update_self]
    rw [own] at defined ⊢
    exact ⟨by rw [same, State.setRank_ranks, ranks], advances.resolve_left defined⟩
  cases action with
  | start q =>
    simp only [stepRank] at taken
    split at taken
    · rename_i location
      cases taken
      exact updated rfl rfl (location ▸ start_advances job q _)
    · cases taken
  | post q =>
    simp only [stepRank] at taken
    split at taken
    · rename_i dst location
      split at taken
      · cases taken
        exact updated rfl rfl (.inr (location ▸ .post dst))
      · cases taken
        exact updated rfl rfl (.inl rfl)
    · cases taken
  | sent q =>
    simp only [stepRank] at taken
    split at taken
    · rename_i dst location
      cases taken
      exact updated rfl rfl (.inr (location ▸ .sent dst))
    · cases taken
  | recv q =>
    simp only [stepRank] at taken
    split at taken
    · rename_i src location
      split at taken
      · rename_i message rest _
        cases taken
        exact updated rfl rfl (location ▸ receive_advances job q src _ message)
      · cases taken
    · cases taken
  | insert q ret =>
    simp only [stepRank] at taken
    split at taken
    · rename_i i location
      cases taken
      exact updated rfl rfl (location ▸ insert_advances job q i ret _)
    · cases taken
  | lookup q ret addrlen =>
    simp only [stepRank] at taken
    split at taken
    · rename_i i location
      rw [Option.ite_none_right_eq_some] at taken
      obtain ⟨_, taken⟩ := taken
      cases taken
      exact updated rfl rfl (.inr (location ▸ lookup_advances job q i ret addrlen _))
    · cases taken

def Location.remaining (size q : Nat) : Location → Nat
  | .outside => 5 * size + 4
  | .recv i => if 0 < q then 2 * size + 1 else size - i + 4 * size
  | .send i posted =>
    if 0 < q then 2 * size + 3 - posted.toNat else 2 * (size - i) - posted.toNat + 2 * size
  | .insert i => size - i + size
  | .lookup i => size - i
  | _ => 0

theorem remaining_check (job : Job) (q i : Nat) :
    (job.check i).remaining job.size q ≤ job.size - i := by
  unfold Job.check
  split
  · exact le_rfl
  · exact Nat.zero_le _

theorem remaining_populate (job : Job) (q i : Nat) :
    (job.populate i).remaining job.size q ≤ job.size - i + job.size := by
  unfold Job.populate
  split
  · exact le_rfl
  · have bound := remaining_check job q 0
    omega

theorem remaining_scatter (job : Job) (i : Nat) :
    (job.scatter i).remaining job.size 0 ≤ 2 * (job.size - i) + 2 * job.size := by
  unfold Job.scatter
  split
  · exact le_rfl
  · have bound := remaining_populate job 0 0
    omega

theorem remaining_gather (job : Job) (i : Nat) :
    (job.gather i).remaining job.size 0 ≤ job.size - i + 4 * job.size := by
  unfold Job.gather
  split
  · exact le_rfl
  · have bound := remaining_scatter job 1
    omega

def Location.Inside (size : Nat) : Location → Prop
  | .send i _ => i < size
  | .recv i => i < size
  | .insert i => i < size
  | .lookup i => i < size
  | _ => True

theorem Job.Populating.inside (populating : job.Populating rank) :
    rank.location.Inside job.size := by
  cases location : rank.location <;> simp_all [Populating, Location.Inside]

theorem Job.Doing.inside (doing : job.Doing q rank) (ranked : q < job.size) :
    rank.location.Inside job.size := by
  have positive : 0 < job.size := by omega
  by_cases tail : rank.location.isTail = true
  · exact (populating_of_doing doing tail).inside
  · by_cases leaf : 0 < q
    · rw [doing_leaf leaf] at doing
      cases location : rank.location <;>
        simp_all [Leaf, Location.Inside, Location.isTail]
    · obtain rfl : q = 0 := by omega
      rw [doing_root] at doing
      cases location : rank.location <;>
        simp_all [Root, Location.Inside, Location.isTail]

theorem Advances.remaining {before after : Location} (advances : Advances job q before after)
    (inside : before.Inside job.size) :
    after.remaining job.size q < before.remaining job.size q := by
  cases advances with
  | start leaf =>
    simp only [Location.remaining, if_pos leaf, Bool.toNat_false]
    omega
  | startRoot root =>
    obtain rfl : q = 0 := by omega
    have bound := remaining_gather job 1
    rw [Location.remaining]
    omega
  | post dst =>
    simp only [Location.Inside] at inside
    simp only [Location.remaining, Bool.toNat_false, Bool.toNat_true]
    split <;> omega
  | sent dst =>
    simp only [Location.Inside] at inside
    by_cases leaf : 0 < q
    · simp only [Job.afterSend, if_pos leaf, Location.remaining, Bool.toNat_true]
      omega
    · obtain rfl : q = 0 := by omega
      have bound := remaining_scatter job (dst + 1)
      have before : (Location.send dst true).remaining job.size 0 =
        2 * (job.size - dst) - 1 + 2 * job.size := rfl
      rw [Job.afterSend, if_neg leaf, before]
      omega
  | recv src leaf =>
    have bound := remaining_populate job q 0
    have before : (Location.recv src).remaining job.size q = 2 * job.size + 1 := if_pos leaf
    rw [before]
    omega
  | recvRoot src root =>
    simp only [Location.Inside] at inside
    obtain rfl : q = 0 := by omega
    have bound := remaining_gather job (src + 1)
    have before : (Location.recv src).remaining job.size 0 =
      job.size - src + 4 * job.size := rfl
    rw [before]
    omega
  | insert i =>
    simp only [Location.Inside] at inside
    have bound := remaining_populate job q (i + 1)
    have before : (Location.insert i).remaining job.size q = job.size - i + job.size := rfl
    rw [before]
    omega
  | terminate i =>
    simp only [Location.Inside] at inside
    simp only [Location.remaining]
    omega
  | lookup i =>
    simp only [Location.Inside] at inside
    have bound := remaining_check job q (i + 1)
    have before : (Location.lookup i).remaining job.size q = job.size - i := rfl
    rw [before]
    omega
  | throw i =>
    simp only [Location.Inside] at inside
    simp only [Location.remaining]
    omega

def State.remaining (job : Job) (s : State) : Nat :=
  ∑ q ∈ Finset.range job.size, (s.ranks q).location.remaining job.size q

theorem Job.Doing.defined (doing : job.Doing q rank) : rank.location ≠ .undefined := by
  intro location
  by_cases leaf : 0 < q
  · rw [doing_leaf leaf] at doing
    simp [Leaf, Populating, location] at doing
  · obtain rfl : q = 0 := by omega
    rw [doing_root] at doing
    simp [Root, Populating, location] at doing

theorem rank_lt_of_step {action : Action} (taken : step job s action = some t) :
    action.rank < job.size := by
  rw [step, Option.ite_none_right_eq_some] at taken
  exact taken.1

theorem remaining_decreases (fits : job.Fits) (sound : job.Sound s) {action : Action}
    (taken : step job s action = some t) : t.remaining job < s.remaining job := by
  have inside := rank_lt_of_step taken
  have defined := ((sound.step fits taken).doing action.rank inside).defined
  obtain ⟨ranks, advances⟩ := step_advances taken defined
  have less := advances.remaining ((sound.doing action.rank inside).inside inside)
  refine Finset.sum_lt_sum (fun q _ => ?_) ⟨action.rank, Finset.mem_range.mpr inside, less⟩
  by_cases here : q = action.rank
  · rw [here]
    exact Nat.le_of_lt less
  · rw [ranks, Function.update_of_ne here]

theorem remaining_initial (job : Job) :
    State.initial.remaining job = job.size * (5 * job.size + 4) := by
  simp [State.remaining, State.initial, Location.remaining]

def Location.ended : Location → Bool
  | .done => true
  | .terminated => true
  | .threw => true
  | _ => false

/-- Some rank can move, and where it leaves `MPI_Send` its message has been received: nothing
depends on whether MPI buffers messages. -/
def Job.Proceeds (job : Job) (s : State) : Prop :=
  ∃ action t, step job s action = some t ∧
    ∀ q dst, action = .sent q → (s.ranks q).location = .send dst true → s.channel (q, dst) = []

def Location.free : Location → Bool
  | .outside => true
  | .send _ posted => !posted
  | .insert _ => true
  | .lookup _ => true
  | _ => false

theorem step_of_stepRank {action : Action}
    (taken : stepRank job s (s.ranks action.rank) action = some t)
    (inside : action.rank < job.size) : step job s action = some t := by
  rw [step, if_pos inside, taken]

theorem proceeds_of_stepRank (action : Action)
    (taken : stepRank job s (s.ranks action.rank) action = some t)
    (inside : action.rank < job.size) (unsent : ∀ q, action ≠ .sent q) : job.Proceeds s :=
  ⟨action, t, step_of_stepRank taken inside, fun q _ sent => absurd sent (unsent q)⟩

theorem proceeds_of_free (inside : q < job.size) (free : (s.ranks q).location.free = true) :
    job.Proceeds s := by
  cases location : (s.ranks q).location with
  | outside =>
    have taken : stepRank job s (s.ranks q) (.start q) =
        some (s.setRank q (job.start q (s.ranks q))) := by
      simp only [stepRank, location]
    exact proceeds_of_stepRank (.start q) taken inside (by simp)
  | send dst posted =>
    rw [location, Location.free, Bool.not_eq_true'] at free
    subst free
    have made : ∃ t, stepRank job s (s.ranks q) (.post q) = some t := by
      simp only [stepRank, location]
      cases job.message q (s.ranks q) with
      | none => exact ⟨_, rfl⟩
      | some message => exact ⟨_, rfl⟩
    obtain ⟨t, taken⟩ := made
    exact proceeds_of_stepRank (.post q) taken inside (by simp)
  | insert i =>
    have taken : stepRank job s (s.ranks q) (.insert q 1) =
        some (s.setRank q (job.insert i 1 (s.ranks q))) := by
      simp only [stepRank, location]
    exact proceeds_of_stepRank (.insert q 1) taken inside (by simp)
  | lookup i =>
    have taken : stepRank job s (s.ranks q) (.lookup q (-1) 0) =
        some (s.setRank q (job.lookup i (-1) 0 (s.ranks q))) := by
      simp only [stepRank, location]
      exact if_pos (by simp)
    exact proceeds_of_stepRank (.lookup q (-1) 0) taken inside (by simp)
  | _ => simp [location, Location.free] at free

theorem proceeds_of_received {dst : Nat} (inside : q < job.size)
    (location : (s.ranks q).location = .send dst true) (received : s.channel (q, dst) = []) :
    job.Proceeds s := by
  have taken : stepRank job s (s.ranks q) (.sent q) =
      some (s.setRank q ((s.ranks q).moveTo (job.afterSend q dst))) := by
    simp only [stepRank, location]
  refine ⟨.sent q, _, step_of_stepRank taken inside, ?_⟩
  intro q' dst' same posted
  cases same
  rw [location] at posted
  cases posted
  exact received

theorem proceeds_of_arrived {src : Nat} (inside : q < job.size)
    (location : (s.ranks q).location = .recv src) (arrived : s.channel (src, q) ≠ []) :
    job.Proceeds s := by
  obtain ⟨message, rest, arrived⟩ := List.exists_cons_of_ne_nil arrived
  have taken : stepRank job s (s.ranks q) (.recv q) =
      some ((s.setChannel src q rest).setRank q (job.receive q src (s.ranks q) message)) := by
    simp only [stepRank, location, arrived]
  exact proceeds_of_stepRank (.recv q) taken inside (by simp)

/-- When rank 0 has received all addresses, another rank waits only for the vector. -/
theorem Job.Sound.leaf_proceeds (sound : job.Sound s) (leaf : 0 < q) (inside : q < job.size)
    (gathered : (s.ranks 0).location.gathered job.size = job.size)
    (scattered : q < (s.ranks 0).location.scattered job.size)
    (waiting : (s.ranks q).location.hasTaken = false)
    (busy : (s.ranks q).location.free = false) : job.Proceeds s := by
  have doing := sound.doing q inside
  rw [doing_leaf leaf] at doing
  cases location : (s.ranks q).location with
  | send dst posted =>
    rw [location, Location.free, Bool.not_eq_false'] at busy
    subst busy
    simp only [Leaf, location] at doing
    obtain ⟨rfl, _⟩ := doing
    refine proceeds_of_received inside location ?_
    rw [sound.linked.up q leaf inside, gathered]
    exact if_neg fun pending => by omega
  | recv src =>
    simp only [Leaf, location] at doing
    obtain ⟨rfl, _⟩ := doing
    refine proceeds_of_arrived inside location ?_
    rw [sound.linked.down q leaf inside, if_pos ⟨scattered, waiting⟩]
    exact List.cons_ne_nil _ _
  | outside => simp [location, Location.free] at busy
  | _ => simp [location, Location.hasTaken] at waiting

theorem hasPosted_of_busy {location : Location} (busy : location.free = false) :
    location.hasPosted = true := by
  cases location <;> simp_all [Location.free, Location.hasPosted]

theorem Job.Sound.proceeds (sound : job.Sound s) (inside : q < job.size)
    (unfinished : (s.ranks q).location.ended = false) : job.Proceeds s := by
  by_cases free : ∃ p < job.size, (s.ranks p).location.free = true
  · obtain ⟨p, member, free⟩ := free
    exact proceeds_of_free member free
  · have busy (p : Nat) (member : p < job.size) : (s.ranks p).location.free = false := by
      cases flag : (s.ranks p).location.free with
      | false => rfl
      | true => exact absurd ⟨p, member, flag⟩ free
    have first : 0 < job.size := by omega
    have doing := sound.doing 0 first
    rw [doing_root] at doing
    -- what rank 0 does decides who can move
    cases location : (s.ranks 0).location with
    | recv src =>
      simp only [Root, location] at doing
      refine proceeds_of_arrived first location ?_
      have posted := hasPosted_of_busy (busy src doing.2.1)
      have next : (s.ranks 0).location.gathered job.size ≤ src := by rw [location]; exact le_rfl
      rw [sound.linked.up src doing.1 doing.2.1, if_pos ⟨posted, next⟩]
      exact List.cons_ne_nil _ _
    | send dst posted =>
      have sending := busy 0 first
      rw [location, Location.free, Bool.not_eq_false'] at sending
      subst sending
      simp only [Root, location] at doing
      cases taken : (s.ranks dst).location.hasTaken with
      | true =>
        refine proceeds_of_received first location ?_
        rw [sound.linked.down dst doing.1 doing.2.1, taken]
        exact if_neg (by simp)
      | false =>
        refine sound.leaf_proceeds doing.1 doing.2.1 (by rw [location]; rfl) ?_ taken
          (busy dst doing.2.1)
        rw [location]
        exact Nat.lt_succ_self dst
    | outside =>
      have idle := busy 0 first
      simp [location, Location.free] at idle
    | undefined => exact absurd location (sound.doing 0 first).defined
    | _ =>
      -- rank 0 has sent the vector to every rank
      have tail : (s.ranks 0).location.isTail = true := by rw [location]; rfl
      obtain ⟨gathered, scattered⟩ := gathered_of_isTail tail job.size
      have leaf : 0 < q := by
        by_contra root
        obtain rfl : q = 0 := by omega
        have blocked := busy 0 first
        simp [location, Location.ended, Location.free] at unfinished blocked
      cases taken : (s.ranks q).location.hasTaken with
      | false => exact sound.leaf_proceeds leaf inside gathered (by omega) taken (busy q inside)
      | true =>
        have blocked := busy q inside
        have defined := (sound.doing q inside).defined
        cases other : (s.ranks q).location <;>
          simp_all [Location.ended, Location.free, Location.hasTaken]

end Steps

/-- What holds at every moment: no access is outside the buffers, a rank that is done has the
address of every rank at its index and nothing else, and until every rank is done, has
thrown or has terminated, some rank can move. -/
structure Job.Bootstrapped (job : Job) (s : State) : Prop where
  defined : ∀ q < job.size, (s.ranks q).location ≠ .undefined
  length : ∀ q < job.size, (s.ranks q).location = .done → (s.ranks q).av.length = job.size
  entry : ∀ q < job.size, (s.ranks q).location = .done → ∀ i < job.size,
    (s.ranks q).av[i]? = some (job.here i)
  proceeds : (∀ q < job.size, (s.ranks q).location.ended = true) ∨ job.Proceeds s

section Outcome

variable {job : Job} {s : State} {q : Nat}

theorem Job.Sound.av_eq (sound : job.Sound s) (inside : q < job.size)
    (done : (s.ranks q).location = .done) :
    (s.ranks q).av = (List.range job.size).map job.here := by
  have populating := populating_of_doing (sound.doing q inside) (by rw [done]; rfl)
  simpa only [Populating, done] using populating

/-- Whatever the order of the messages, each rank gets the vector of one exchange. -/
theorem av_eq_exchangeAddresses (fits : job.Fits) (reached : Reachable job s)
    (inside : q < job.size) (done : (s.ranks q).location = .done) :
    (s.ranks q).av = exchangeAddresses job.here (List.range job.size) := by
  rw [(sound_of_reachable fits reached).av_eq inside done, exchangeAddresses_eq]

theorem Job.Sound.bootstrapped (sound : job.Sound s) : job.Bootstrapped s where
  defined q inside := (sound.doing q inside).defined
  length q inside done := by
    rw [sound.av_eq inside done, List.length_map, List.length_range]
  entry q inside done i below := by
    rw [sound.av_eq inside done, List.getElem?_map, List.getElem?_range below]
    rfl
  proceeds := by
    by_cases all : ∀ q < job.size, (s.ranks q).location.ended = true
    · exact .inl all
    · simp only [not_forall, Bool.not_eq_true] at all
      obtain ⟨q, inside, unfinished⟩ := all
      exact .inr (sound.proceeds inside unfinished)

end Outcome

/-- Where the byte counts fit an `int`, every run of the ranks is lawful and takes a bounded
number of steps. -/
theorem localities_exchanged (job : Job) (ranks : 1 ≤ job.size)
    (fits : job.size * job.arraySize < 2 ^ 31) :
    (∀ s, Reachable job s → job.Bootstrapped s) ∧
      ∀ actions s, run (step job) (fun _ _ => True) State.initial actions = some s →
        actions.length ≤ job.size * (5 * job.size + 4) := by
  have fits : job.Fits := ⟨ranks, fits⟩
  constructor
  · intro s reached
    exact (sound_of_reachable fits reached).bootstrapped
  · intro actions s ran
    have bounded := length_le_of_run (State.remaining job)
      (fun _ _ _ sound _ taken => Job.Sound.step fits sound taken)
      (fun _ _ _ sound _ taken => remaining_decreases fits sound taken) Job.Sound.initial ran
    rw [remaining_initial] at bounded
    omega

def threeRanks : Job where
  size := 3
  arraySize := 2
  here r := [UInt8.ofNat r, 9]
  sized _ := rfl

/-- Rank 2 inserts the three addresses, and the process of rank 1 is terminated because the
fabric refuses the second one. -/
theorem localities_exchanged_three :
    ∃ s, Reachable threeRanks s ∧ threeRanks.Bootstrapped s ∧
      (s.ranks 2).location = .done ∧ (s.ranks 2).av = [[0, 9], [1, 9], [2, 9]] ∧
      (s.ranks 1).location = .terminated := by
  have ran : (run (step threeRanks) (fun _ _ => True) State.initial
      [.start 2, .post 2, .start 0, .start 1, .post 1, .sent 2, .recv 0, .recv 0, .sent 1,
        .post 0, .recv 1, .insert 1 1, .sent 0, .insert 1 0, .post 0, .sent 0, .recv 2,
        .insert 2 1, .insert 2 1, .insert 2 1, .lookup 2 0 2, .lookup 2 0 2, .lookup 2 0 2]).map
      (fun s => ((s.ranks 2).location, (s.ranks 2).av, (s.ranks 1).location)) =
      some (.done, [[0, 9], [1, 9], [2, 9]], .terminated) := by
    decide +kernel
  obtain ⟨s, ran, ended⟩ := Option.map_eq_some_iff.mp ran
  simp only [Prod.mk.injEq] at ended
  have reached : Reachable threeRanks s := reaches_of_run ran
  exact ⟨s, reached, (localities_exchanged threeRanks (by decide) (by decide)).1 s reached, ended⟩

/-- With `2 ^ 28` ranks and addresses of 16 bytes the size of the vector wraps to zero. -/
def manyRanks : Job where
  size := 2 ^ 28
  arraySize := 16
  here _ := List.replicate 16 0
  sized _ := rfl

theorem many_ranks_overflow :
    ∃ s, Reachable manyRanks s ∧ (s.ranks 0).location = .undefined := by
  have ran : (run (step manyRanks) (fun _ _ => True) State.initial [.start 0]).map
      (fun s => (s.ranks 0).location) = some .undefined := by
    decide +kernel
  obtain ⟨s, ran, overflow⟩ := Option.map_eq_some_iff.mp ran
  exact ⟨s, reaches_of_run ran, overflow⟩

end Oomph.Libfabric.Bootstrap
