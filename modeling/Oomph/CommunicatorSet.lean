import Oomph.Machine.Run
import Mathlib.Data.Finset.Sort

namespace Oomph.CommunicatorSet

open Machine

/-! `communicator_set` keeps the communicators of a context in one set for each thread, so that a
barrier can make progress on those of its own thread.  A thread is known by the address of a heap
cell that it owns as long as it runs.  The constructor of `communicator_state` enters the
communicator for the thread that runs it, and the destructor removes it for the thread that runs
the destructor.
-/

structure Live where
  context : Nat
  creator : Nat
deriving DecidableEq, Repr

structure State where
  tids : List (Option Nat)
  /-- The objects of class `communicator`, each with the communicator that it owns. -/
  handles : List (Option Nat)
  live : Nat → Option Live
  map : Nat → Nat → Finset Nat
  /-- The communicators on which `communicator_set::progress` has called `progress`, with whether
  they were live, newest first. -/
  progressed : List (Nat × Bool)

namespace State

def initial : State where
  tids := []
  handles := []
  live _ := none
  map _ _ := ∅
  progressed := []

def modify (context tid : Nat) (change : Finset Nat → Finset Nat) (s : State) : State :=
  { s with
    map := Function.update s.map context
      (Function.update (s.map context) tid (change (s.map context tid))) }

/-- The constructor of `communicator_state` -/
def construct (context tid impl : Nat) (s : State) : State :=
  { s with live := Function.update s.live impl (some { context, creator := tid }) }.modify
    context tid (insert impl)

/-- The destructor of `communicator_state` -/
def destruct (tid impl : Nat) (s : State) : State :=
  match s.live impl with
  | none => s
  | some l => { s with live := Function.update s.live impl none }.modify l.context tid
      (Finset.erase · impl)

def letGo (tid : Nat) (owned : Option Nat) (s : State) : State :=
  match owned with
  | none => s
  | some impl => s.destruct tid impl

def setHandle (handle : Nat) (owned : Option Nat) (s : State) : State :=
  { s with handles := s.handles.set handle owned }

def addHandle (owned : Option Nat) (s : State) : State :=
  { s with handles := s.handles ++ [owned] }

def progress (context tid : Nat) (s : State) : State :=
  { s with
    progressed :=
      ((s.map context tid).sort (· ≤ ·)).map (fun impl => (impl, (s.live impl).isSome)) ++
        s.progressed }

end State

inductive Action
  /-- A thread starts; its identifier may be one that an earlier thread had. -/
  | start (tid : Nat)
  | exit (thread : Nat)
  /-- `context::get_communicator`; the address may be one that an earlier communicator had. -/
  | create (thread context impl : Nat)
  | move (source : Nat)
  | assign (thread target source : Nat)
  | destroy (thread handle : Nat)
  /-- A turn of a loop in `barrier`, or of the one in `rank_barrier`. -/
  | barrier (thread context : Nat)
deriving DecidableEq, Repr

namespace State

def tid (s : State) (thread : Nat) : Option Nat :=
  s.tids[thread]?.join

end State

def step (s : State) (action : Action) : Option State :=
  match action with
  | .start tid => if some tid ∈ s.tids then none else some { s with tids := s.tids ++ [some tid] }
  | .exit thread => some { s with tids := s.tids.set thread none }
  | .create thread context impl =>
    match s.tid thread, s.live impl with
    | some tid, none => some ((s.construct context tid impl).addHandle (some impl))
    | _, _ => none
  | .move source =>
    s.handles[source]?.map fun owned => (s.setHandle source none).addHandle owned
  | .assign thread target source =>
    match s.tid thread, s.handles[target]?, s.handles[source]? with
    | some tid, some old, some new =>
      if target = source then none
      else some (((s.letGo tid old).setHandle target new).setHandle source none)
    | _, _, _ => none
  | .destroy thread handle =>
    match s.tid thread, s.handles[handle]? with
    | some tid, some owned => some ((s.letGo tid owned).setHandle handle none)
    | _, _ => none
  | .barrier thread context => (s.tid thread).map fun tid => s.progress context tid

/-- The communicators registered for a context are its live ones, each registered once, and
progress was made on live ones only. -/
structure State.Registered (s : State) : Prop where
  exact : ∀ context impl, (∃ tid, impl ∈ s.map context tid) ↔
    ∃ creator, s.live impl = some ⟨context, creator⟩
  once : ∀ context impl first second,
    impl ∈ s.map context first → impl ∈ s.map context second → first = second
  alive : ∀ call ∈ s.progressed, call.2 = true

def State.MadeBy (s : State) (thread handle : Nat) : Prop :=
  ∀ impl ∈ s.handles[handle]?.join, ∀ l ∈ s.live impl, s.tid thread = some l.creator

instance (s : State) (thread handle : Nat) : Decidable (s.MadeBy thread handle) :=
  inferInstanceAs (Decidable (∀ impl ∈ s.handles[handle]?.join, ∀ l ∈ s.live impl,
    s.tid thread = some l.creator))

def OwnThread (s : State) : Action → Prop
  | .assign thread target _ => s.MadeBy thread target
  | .destroy thread handle => s.MadeBy thread handle
  | _ => True

instance (s : State) (action : Action) : Decidable (OwnThread s action) := by
  unfold OwnThread
  split <;> infer_instance

structure State.Keyed (s : State) : Prop where
  keyed : ∀ context tid impl, impl ∈ s.map context tid ↔ s.live impl = some ⟨context, tid⟩
  alive : ∀ call ∈ s.progressed, call.2 = true

variable {s t : State} {action : Action}

theorem State.Keyed.registered (keyed : s.Keyed) : s.Registered where
  exact context impl := exists_congr fun tid => keyed.keyed context tid impl
  once context impl first second one other := by
    have same := ((keyed.keyed _ _ _).mp one).symm.trans ((keyed.keyed _ _ _).mp other)
    simpa using same
  alive := keyed.alive

theorem mem_modify {change : Finset Nat → Finset Nat} {context tid other otherTid impl : Nat} :
    impl ∈ (s.modify context tid change).map other otherTid ↔
      if other = context ∧ otherTid = tid then impl ∈ change (s.map context tid)
      else impl ∈ s.map other otherTid := by
  unfold State.modify
  by_cases here : other = context
  · subst other
    by_cases same : otherTid = tid
    · subst otherTid
      simp
    · simp [same]
  · simp [here]

namespace State.Keyed

theorem construct (keyed : s.Keyed) {context tid impl : Nat} (fresh : s.live impl = none) :
    (s.construct context tid impl).Keyed := by
  refine ⟨fun other otherTid another => ?_, keyed.alive⟩
  rw [State.construct, mem_modify]
  by_cases new : another = impl
  · subst another
    have absent : impl ∉ s.map other otherTid := by
      rw [keyed.keyed, fresh]
      nofun
    by_cases here : other = context ∧ otherTid = tid
    · obtain ⟨rfl, rfl⟩ := here
      simp [State.modify]
    · have elsewhere : ¬ (context = other ∧ tid = otherTid) := fun ⟨same, equal⟩ =>
        here ⟨same.symm, equal.symm⟩
      simp [State.modify, here, absent, elsewhere]
  · have old := keyed.keyed other otherTid another
    by_cases here : other = context ∧ otherTid = tid
    · obtain ⟨rfl, rfl⟩ := here
      simp [State.modify, new, old]
    · simp [State.modify, here, new, old]

theorem destruct (keyed : s.Keyed) {tid impl : Nat} (own : ∀ l ∈ s.live impl, tid = l.creator) :
    (s.destruct tid impl).Keyed := by
  unfold State.destruct
  cases found : s.live impl with
  | none => exact keyed
  | some l =>
    have same := own l found
    subst same
    refine ⟨fun other otherTid another => ?_, keyed.alive⟩
    simp only
    rw [mem_modify]
    have old := keyed.keyed other otherTid another
    by_cases gone : another = impl
    · subst another
      rw [found] at old
      by_cases here : other = l.context ∧ otherTid = l.creator
      · simp [State.modify, here]
      · have absent : impl ∉ s.map other otherTid := by
          rw [old]
          rintro ⟨⟩
          exact here ⟨rfl, rfl⟩
        simp [State.modify, here, absent]
    · by_cases here : other = l.context ∧ otherTid = l.creator
      · obtain ⟨rfl, rfl⟩ := here
        simp [State.modify, gone, old]
      · simp [State.modify, here, gone, old]

theorem letGo (keyed : s.Keyed) {tid : Nat} {owned : Option Nat}
    (own : ∀ impl ∈ owned, ∀ l ∈ s.live impl, tid = l.creator) : (s.letGo tid owned).Keyed := by
  cases owned with
  | none => exact keyed
  | some impl => exact keyed.destruct (own impl rfl)

theorem progress (keyed : s.Keyed) (context tid : Nat) : (s.progress context tid).Keyed := by
  refine ⟨keyed.keyed, fun call member => ?_⟩
  rcases List.mem_append.mp member with new | old
  · obtain ⟨impl, registered, rfl⟩ := List.mem_map.mp new
    rw [Finset.mem_sort, keyed.keyed] at registered
    simp [registered]
  · exact keyed.alive call old

theorem of_same (keyed : s.Keyed) (map : t.map = s.map) (live : t.live = s.live)
    (progressed : t.progressed = s.progressed) : t.Keyed := by
  refine ⟨fun context tid impl => ?_, ?_⟩
  · rw [map, live]
    exact keyed.keyed context tid impl
  · rw [progressed]
    exact keyed.alive

private theorem own_of_madeBy {thread handle tid : Nat} {owned : Option Nat}
    (made : s.MadeBy thread handle) (runs : s.tid thread = some tid)
    (found : s.handles[handle]? = some owned) :
    ∀ impl ∈ owned, ∀ l ∈ s.live impl, tid = l.creator := by
  intro impl owns l lives
  have same := made impl (by simpa [found] using owns) l lives
  rw [runs] at same
  exact Option.some.inj same

theorem step (keyed : s.Keyed) (own : OwnThread s action)
    (taken : CommunicatorSet.step s action = some t) : t.Keyed := by
  cases action with
  | start tid =>
    simp only [CommunicatorSet.step] at taken
    split at taken
    · cases taken
    · cases taken
      exact keyed.of_same rfl rfl rfl
  | exit thread =>
    cases taken
    exact keyed.of_same rfl rfl rfl
  | create thread context impl =>
    simp only [CommunicatorSet.step] at taken
    split at taken
    · cases taken
      exact (keyed.construct ‹_›).of_same rfl rfl rfl
    · cases taken
  | move source =>
    obtain ⟨owned, -, rfl⟩ := Option.map_eq_some_iff.mp taken
    exact keyed.of_same rfl rfl rfl
  | assign thread target source =>
    simp only [CommunicatorSet.step] at taken
    split at taken
    · split at taken
      · cases taken
      · cases taken
        exact (keyed.letGo (own_of_madeBy own ‹_› ‹_›)).of_same rfl rfl rfl
    · cases taken
  | destroy thread handle =>
    simp only [CommunicatorSet.step] at taken
    split at taken
    · cases taken
      exact (keyed.letGo (own_of_madeBy own ‹_› ‹_›)).of_same rfl rfl rfl
    · cases taken
  | barrier thread context =>
    obtain ⟨tid, -, rfl⟩ := Option.map_eq_some_iff.mp taken
    exact keyed.progress context tid

theorem initial : State.initial.Keyed where
  keyed context tid impl := by simp [State.initial]
  alive := nofun

theorem of_reaches (reached : Reaches CommunicatorSet.step OwnThread .initial s) : s.Keyed :=
  Reaches.invariant State.Keyed initial (fun _ _ _ keyed own taken => keyed.step own taken) reached

/-- What another thread destroys stays registered. -/
theorem not_registered_of_letGo (keyed : s.Keyed) {tid impl : Nat} {l : Live}
    (lives : s.live impl = some l) (foreign : tid ≠ l.creator)
    (map : t.map = (s.letGo tid (some impl)).map) (live : t.live = (s.letGo tid (some impl)).live) :
    ¬ t.Registered := by
  intro registered
  have before := (keyed.keyed l.context l.creator impl).mpr lives
  have still : impl ∈ t.map l.context l.creator := by
    rw [map, State.letGo, State.destruct, lives]
    simp only
    rw [mem_modify, if_neg fun ⟨_, same⟩ => foreign same.symm]
    exact before
  have gone : t.live impl = none := by
    rw [live, State.letGo, State.destruct, lives]
    simp [State.modify]
  obtain ⟨creator, lives⟩ := (registered.exact l.context impl).mp ⟨_, still⟩
  rw [gone] at lives
  cases lives

private theorem exists_of_not_madeBy {thread handle tid : Nat} {owned : Option Nat}
    (other : ¬ s.MadeBy thread handle) (runs : s.tid thread = some tid)
    (found : s.handles[handle]? = some owned) :
    ∃ impl l, owned = some impl ∧ s.live impl = some l ∧ tid ≠ l.creator := by
  simp only [State.MadeBy, found, Option.join_some, not_forall] at other
  obtain ⟨impl, owns, l, lives, foreign⟩ := other
  exact ⟨impl, l, owns, lives, fun same => foreign (by rw [runs, same])⟩

theorem not_registered (keyed : s.Keyed) (other : ¬ OwnThread s action)
    (taken : CommunicatorSet.step s action = some t) : ¬ t.Registered := by
  cases action with
  | assign thread target source =>
    simp only [CommunicatorSet.step] at taken
    split at taken
    · split at taken
      · cases taken
      · cases taken
        obtain ⟨impl, l, rfl, lives, foreign⟩ := exists_of_not_madeBy other ‹_› ‹_›
        exact keyed.not_registered_of_letGo lives foreign rfl rfl
    · cases taken
  | destroy thread handle =>
    simp only [CommunicatorSet.step] at taken
    split at taken
    · cases taken
      obtain ⟨impl, l, rfl, lives, foreign⟩ := exists_of_not_madeBy other ‹_› ‹_›
      exact keyed.not_registered_of_letGo lives foreign rfl rfl
    · cases taken
  | _ => exact absurd trivial other

end State.Keyed

/-- As long as communicators are destroyed by threads with the identifier with which they were
made, the registered communicators are the live ones; a step by another thread ends that. -/
theorem registered_iff_own_thread {s : State} (reached : Reaches step OwnThread .initial s) :
    s.Registered ∧
      ∀ t action, step s action = some t → (t.Registered ↔ OwnThread s action) := by
  have keyed := State.Keyed.of_reaches reached
  constructor
  · exact keyed.registered
  · intro t action taken
    constructor
    · intro registered
      by_contra other
      exact keyed.not_registered other taken registered
    · intro own
      exact (keyed.step own taken).registered

/-- A thread ends, another one gets its identifier and destroys the communicator of the first. -/
theorem registered_after_reuse :
    ∃ s, Reaches step OwnThread .initial s ∧ s.handles = [none] ∧ s.Registered := by
  obtain ⟨s, reached, handles⟩ := exists_of_run step OwnThread .initial
    [.start 64, .create 0 0 8, .barrier 0 0, .exit 0, .start 64, .barrier 1 0, .destroy 1 0]
    (fun s => s.handles = [none]) (by decide +kernel)
  exact ⟨s, reached, handles, (registered_iff_own_thread reached).1⟩

/-- A communicator is moved to another thread and destroyed there; the next barrier of its own
thread makes progress on it. -/
theorem progress_on_destroyed :
    ∃ s, Leads step .initial s ∧ s.live 8 = none ∧ s.progressed = [(8, false)] ∧ ¬ s.Registered := by
  obtain ⟨s, reached, gone, progressed⟩ := exists_of_run step (fun _ _ => True) .initial
    [.start 64, .start 80, .create 0 0 8, .move 0, .destroy 1 1, .barrier 0 0]
    (fun s => s.live 8 = none ∧ s.progressed = [(8, false)]) (by decide +kernel)
  refine ⟨s, reached, gone, progressed, fun registered => ?_⟩
  exact absurd (registered.alive (8, false) (by simp [progressed])) (by decide)

end Oomph.CommunicatorSet
