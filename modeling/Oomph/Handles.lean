import Oomph.Machine.Owners
import Mathlib.Logic.Function.Basic

namespace Oomph.Handles

open Machine

/-! `mpi_comm_holder`, `cuda_event` and `nccl_comm` release their handle in the destructor unless their
`moved_bit` is set, and have the default move operations.  A `context` has a holder, and a
`cached_cuda_event` gets its event from a pool and gives it back.  The handles of each kind are
numbered in the order in which they were acquired.
-/

/-- A handle and its `moved_bit`. -/
structure Guarded where
  resource : Nat
  moved : Bool
deriving DecidableEq, Repr

namespace Guarded

def moveConstruct (other : Guarded) : Guarded × Guarded :=
  (other, { other with moved := true })

/-- The move assignment, which copies the handle and exchanges the bit: the object, and what is
left of the other. -/
def moveAssign (_this other : Guarded) : Guarded × Guarded :=
  ({ resource := other.resource, moved := other.moved }, { other with moved := true })

def owned (g : Guarded) : List Nat :=
  if g.moved then [] else [g.resource]

end Guarded

inductive Kind
  | communicator
  | event
  | ncclComm
deriving DecidableEq, Repr

inductive Class
  | context
  | cudaEvent
  | cachedCudaEvent
  | ncclComm
deriving DecidableEq, Repr

def Class.kind : Class → Kind
  | .context => .communicator
  | .cudaEvent => .event
  | .cachedCudaEvent => .event
  | .ncclComm => .ncclComm

structure Object where
  cls : Class
  guarded : Guarded
deriving DecidableEq, Repr

structure Ledger where
  acquired : Nat
  released : List Nat
deriving DecidableEq, Repr

structure State where
  objects : List (Option Object)
  /-- `m_events` of the pool, from its back, once the pool exists. -/
  pool : Option (List Guarded)
  ledger : Kind → Ledger

/-- The size with which `get_cuda_event_pool` makes the pool. -/
def poolSize : Nat := 128

/-- How a constructor ends. -/
inductive Outcome
  | made
  /-- It throws before it has acquired the handle. -/
  | throwsBefore
  /-- It throws when it has acquired the handle.  That of `cuda_event` does so when
  `cudaEventCreateWithFlags` fails at first and then succeeds: `OOMPH_CHECK_CUDA_RESULT` evaluates
  the failed call once more for the text of the error. -/
  | throwsAfter
deriving DecidableEq, Repr

/-- The constructor of the pool throws at the event after so many others, which has been acquired
then if `acquires`. -/
structure PoolFailure where
  created : Fin poolSize
  acquires : Bool
deriving DecidableEq, Repr

namespace State

def initial : State where
  objects := []
  pool := none
  ledger _ := ⟨0, []⟩

def next (kind : Kind) (s : State) : Guarded :=
  ⟨(s.ledger kind).acquired, false⟩

def acquire (kind : Kind) (s : State) : State :=
  { s with
    ledger := Function.update s.ledger kind
      { s.ledger kind with acquired := (s.ledger kind).acquired + 1 } }

def release (kind : Kind) (resources : List Nat) (s : State) : State :=
  { s with
    ledger := Function.update s.ledger kind
      { s.ledger kind with released := resources ++ (s.ledger kind).released } }

def add (cls : Class) (guarded : Guarded) (s : State) : State :=
  { s with objects := s.objects ++ [some ⟨cls, guarded⟩] }

def setObject (index : Nat) (object : Option Object) (s : State) : State :=
  { s with objects := s.objects.set index object }

def create (cls : Class) (s : State) : State :=
  (s.acquire cls.kind).add cls (s.next cls.kind)

def attempt (kind : Kind) (s : State) : State :=
  (s.acquire kind).release kind (s.next kind).owned

/-- A constructor that does nothing but to acquire a handle, so that no destructor releases the
handle of an object that is not complete. -/
def construct (cls : Class) (outcome : Outcome) (s : State) : State :=
  match outcome with
  | .made => s.create cls
  | .throwsBefore => s
  | .throwsAfter => s.acquire cls.kind

def events (s : State) : List Guarded :=
  s.pool.getD []

/-- `cuda_event_pool::push` -/
def push (event : Guarded) (s : State) : State :=
  { s with pool := some (event :: s.events) }

def addEvent (s : State) : State :=
  (s.acquire .event).push (s.next .event)

/-- The constructor of `cuda_event_pool` -/
def fill (count : Nat) (s : State) : State :=
  addEvent^[count] { s with pool := some [] }

/-- `get_cuda_event_pool`, which makes the pool when it is called first.  If the constructor of an
event throws, the events before it are destroyed again and there is no pool. -/
def getPool (failing : Option PoolFailure) (s : State) : State × Bool :=
  match s.pool, failing with
  | some _, _ => (s, true)
  | none, none => (s.fill poolSize, true)
  | none, some failure =>
    let tried := (attempt .event)^[failure.created] s
    (if failure.acquires then tried.acquire .event else tried, false)

/-- An object of the class is made from `cuda_event_pool::pop`. -/
def pop (cls : Class) (outcome : Outcome) (s : State) : State :=
  match s.events with
  | event :: events => { s with pool := some events }.add cls event
  | [] => s.construct cls outcome

def clear (s : State) : State :=
  { s.release .event (s.events.flatMap Guarded.owned) with pool := some [] }

def destruct (object : Object) (s : State) : State :=
  match object.cls with
  | .cachedCudaEvent =>
    -- The event is moved into the pool, and what is left of it holds nothing.
    if object.guarded.moved then s else (s.getPool none).1.push object.guarded
  | cls => s.release cls.kind object.guarded.owned

end State

inductive Action
  | makeContext (outcome : Outcome)
  | makeNcclComm (outcome : Outcome)
  | makeEvent (outcome : Outcome)
  | makeCachedEvent (failing : Option PoolFailure) (outcome : Outcome)
  | popEvent (failing : Option PoolFailure) (outcome : Outcome)
  | pushEvent (failing : Option PoolFailure) (source : Nat)
  | clearPool (failing : Option PoolFailure)
  | moveConstruct (source : Nat)
  | moveAssign (target source : Nat)
  | destroy (object : Nat)
deriving DecidableEq, Repr

def State.withPool (failing : Option PoolFailure) (act : State → State) (s : State) : State :=
  if (s.getPool failing).2 then act (s.getPool failing).1 else (s.getPool failing).1

def step (s : State) (action : Action) : Option State :=
  match action with
  | .makeContext .made => some (s.create .context)
  | .makeContext .throwsBefore => some s
  -- The holder is complete when the members after it are made, so that its destructor runs.
  | .makeContext .throwsAfter => some (s.attempt .communicator)
  | .makeNcclComm outcome => some (s.construct .ncclComm outcome)
  | .makeEvent outcome => some (s.construct .cudaEvent outcome)
  | .makeCachedEvent failing outcome => some (s.withPool failing (·.pop .cachedCudaEvent outcome))
  | .popEvent failing outcome => some (s.withPool failing (·.pop .cudaEvent outcome))
  | .pushEvent failing source =>
    match s.objects[source]? with
    | some (some ⟨.cudaEvent, event⟩) => some (s.withPool failing fun s =>
      (s.setObject source (some ⟨.cudaEvent, event.moveConstruct.2⟩)).push
        event.moveConstruct.1)
    | _ => none
  | .clearPool failing => some (s.withPool failing State.clear)
  | .moveConstruct source =>
    match s.objects[source]? with
    | some (some other) =>
      some ((s.setObject source (some ⟨other.cls, other.guarded.moveConstruct.2⟩)).add
        other.cls other.guarded.moveConstruct.1)
    | _ => none
  | .moveAssign target source =>
    match s.objects[target]?, s.objects[source]? with
    | some (some this), some (some other) =>
      if target = source ∨ this.cls ≠ other.cls then none
      else some ((s.setObject target
        (some ⟨this.cls, (this.guarded.moveAssign other.guarded).1⟩)).setObject source
          (some ⟨other.cls, (this.guarded.moveAssign other.guarded).2⟩))
    | _, _ => none
  | .destroy object =>
    match s.objects[object]? with
    | some (some this) => some ((s.destruct this).setObject object none)
    | _ => none

def State.Gone (s : State) : Prop :=
  ∀ object ∈ s.objects, object = none

/-- Each handle was released once; an event may be in the pool instead. -/
structure State.Settled (s : State) : Prop where
  others : ∀ kind ≠ .event, ∀ resource < (s.ledger kind).acquired,
    (s.ledger kind).released.count resource = 1
  events : ∀ resource < (s.ledger .event).acquired,
    (s.ledger .event).released.count resource +
      (s.events.flatMap Guarded.owned).count resource = 1

/-- The constructor of the pool runs and throws with an event in hand. -/
def State.PoolLeaks (s : State) (failing : Option PoolFailure) : Prop :=
  s.pool = none ∧ (failing.map PoolFailure.acquires) = some true

/-- The pool has no event to give, and the constructor of a new one throws with an event in hand. -/
def State.PopLeaks (s : State) (outcome : Outcome) : Prop :=
  s.pool = some [] ∧ outcome = .throwsAfter

/-- A move assignment overwrites no handle, and no constructor of `nccl_comm` or `cuda_event` throws
once it has acquired its handle. -/
def Careful (s : State) : Action → Prop
  | .makeNcclComm outcome => outcome ≠ .throwsAfter
  | .makeEvent outcome => outcome ≠ .throwsAfter
  | .makeCachedEvent failing outcome => ¬ s.PoolLeaks failing ∧ ¬ s.PopLeaks outcome
  | .popEvent failing outcome => ¬ s.PoolLeaks failing ∧ ¬ s.PopLeaks outcome
  | .pushEvent failing _ => ¬ s.PoolLeaks failing
  | .clearPool failing => ¬ s.PoolLeaks failing
  | .moveAssign target _ => ∀ this ∈ s.objects[target]?.join, this.guarded.moved = true
  | _ => True

instance (s : State) (failing : Option PoolFailure) : Decidable (s.PoolLeaks failing) :=
  inferInstanceAs (Decidable (_ ∧ _))

instance (s : State) (outcome : Outcome) : Decidable (s.PopLeaks outcome) :=
  inferInstanceAs (Decidable (_ ∧ _))

instance (s : State) (action : Action) : Decidable (Careful s action) := by
  unfold Careful
  split <;> infer_instance

def Guarded.share (holds kind : Kind) (g : Guarded) : Multiset Nat :=
  if holds = kind then g.owned else 0

def share (kind : Kind) (object : Option Object) : Multiset Nat :=
  match object with
  | none => 0
  | some this => this.guarded.share this.cls.kind kind

def State.pooled (kind : Kind) (s : State) : Multiset Nat :=
  total (Guarded.share .event kind) s.events

def State.holdings (kind : Kind) (s : State) : Holdings where
  acquired := (s.ledger kind).acquired
  held := total (share kind) s.objects + s.pooled kind
  released := (s.ledger kind).released

def State.Balanced (s : State) : Prop :=
  ∀ kind, (s.holdings kind).Conserved

variable {s t : State} {action : Action} {this other : Object} {kind : Kind} {cls : Class}
  {object target source : Nat}

@[simp] theorem Guarded.share_same (g : Guarded) : g.share kind kind = g.owned := by
  simp [Guarded.share]

theorem Guarded.share_of_ne {holds : Kind} (different : holds ≠ kind) (g : Guarded) :
    g.share holds kind = 0 := by
  simp [Guarded.share, different]

theorem Guarded.share_of_moved {holds : Kind} {g : Guarded} (moved : g.moved = true) :
    g.share holds kind = 0 := by
  simp [Guarded.share, Guarded.owned, moved]

@[simp] theorem share_some : share kind (some this) = this.guarded.share this.cls.kind kind := rfl

@[simp] theorem share_none : share kind none = 0 := rfl

theorem total_share_same (events : List Guarded) :
    total (Guarded.share kind kind) events = events.flatMap Guarded.owned := by
  induction events with
  | nil => rfl
  | cons event events ih => rw [total_cons, ih, Guarded.share_same, List.flatMap_cons,
      Multiset.coe_add]

theorem total_share_of_ne {holds : Kind} (different : holds ≠ kind) (events : List Guarded) :
    total (Guarded.share holds kind) events = 0 := by
  induction events with
  | nil => rfl
  | cons event events ih => rw [total_cons, ih, Guarded.share_of_ne different, zero_add]

section Operations

variable (kind : Kind) (s : State)

@[simp] theorem pooled_push (event : Guarded) :
    (s.push event).pooled kind = event.share .event kind + s.pooled kind :=
  total_cons ..

theorem trade_create (cls : Class) :
    Trade (s.holdings kind) ((s.create cls).holdings kind) := by
  unfold State.holdings
  simp only [State.create, State.add, State.acquire, State.pooled, State.events, total_append,
    total_cons, total_nil, add_zero]
  by_cases same : cls.kind = kind
  · subst kind
    simp only [Function.update_self, share_some, Guarded.share_same, State.next, Guarded.owned,
      Bool.false_eq_true, if_false, Multiset.coe_singleton]
    rw [add_right_comm, add_comm _ {_}, Multiset.singleton_add]
    exact .acquire
  · simp only [Function.update_of_ne (Ne.symm same), share_some, Guarded.share_of_ne same, add_zero]
    exact .keep _

theorem trade_construct (cls : Class) {outcome : Outcome} (kept : outcome ≠ .throwsAfter) :
    Trade (s.holdings kind) ((s.construct cls outcome).holdings kind) := by
  cases outcome with
  | made => exact trade_create kind s cls
  | throwsBefore => exact .keep _
  | throwsAfter => exact absurd rfl kept

theorem trade_attempt (made : Kind) :
    Trade (s.holdings kind) ((s.attempt made).holdings kind) := by
  unfold State.holdings
  simp only [State.attempt, State.release, State.acquire, State.next, State.pooled, State.events]
  by_cases same : made = kind
  · subst made
    simp only [Function.update_self, Guarded.owned, Bool.false_eq_true, if_false]
    exact .trans .acquire (.release _)
  · simp only [Function.update_of_ne (Ne.symm same)]
    exact .keep _

theorem trade_addEvent : Trade (s.holdings kind) (s.addEvent.holdings kind) := by
  unfold State.holdings State.addEvent
  rw [pooled_push]
  simp only [State.push, State.acquire, State.pooled, State.events]
  by_cases same : .event = kind
  · subst kind
    simp only [Function.update_self, Guarded.share_same, State.next, Guarded.owned,
      Bool.false_eq_true, if_false, Multiset.coe_singleton]
    rw [add_left_comm, Multiset.singleton_add]
    exact .acquire
  · simp only [Function.update_of_ne (Ne.symm same), Guarded.share_of_ne same, zero_add]
    exact .keep _

theorem objects_iterate (act : State → State) (same : ∀ s, (act s).objects = s.objects)
    (count : Nat) : (act^[count] s).objects = s.objects := by
  induction count generalizing s with
  | zero => rfl
  | succ count ih => exact (ih (act s)).trans (same s)

theorem objects_fill (count : Nat) : (s.fill count).objects = s.objects :=
  objects_iterate { s with pool := some [] } State.addEvent (fun _ => rfl) count

theorem events_fill {count : Nat} (some : count ≠ 0) : (s.fill count).events ≠ [] := by
  obtain ⟨count, rfl⟩ := Nat.exists_eq_succ_of_ne_zero some
  unfold State.fill
  rw [Function.iterate_succ_apply']
  exact List.cons_ne_nil _ _

theorem objects_getPool (failing : Option PoolFailure) :
    (s.getPool failing).1.objects = s.objects := by
  have tried (count : Nat) : ((State.attempt .event)^[count] s).objects = s.objects :=
    objects_iterate s (State.attempt .event) (fun _ => rfl) count
  unfold State.getPool
  split
  · rfl
  · exact objects_fill s poolSize
  · split
    · exact tried _
    · exact tried _

theorem getPool_of_some {events : List Guarded} (found : s.pool = some events)
    (failing : Option PoolFailure) : s.getPool failing = (s, true) := by
  unfold State.getPool
  rw [found]

theorem getPool_none (absent : s.pool = none) : s.getPool none = (s.fill poolSize, true) := by
  unfold State.getPool
  rw [absent]

theorem getPool_some (absent : s.pool = none) (failure : PoolFailure) :
    s.getPool (some failure) =
      (if failure.acquires then ((State.attempt .event)^[failure.created] s).acquire .event
        else (State.attempt .event)^[failure.created] s, false) := by
  unfold State.getPool
  rw [absent]

/-- The pool that a call of `get_cuda_event_pool` returns is empty only if it was before. -/
theorem pool_of_getPool {failing : Option PoolFailure} (opened : (s.getPool failing).2 = true)
    (empty : (s.getPool failing).1.events = []) : s.pool = some [] := by
  cases found : s.pool with
  | some events =>
    rw [getPool_of_some s found] at empty
    simpa [State.events, found] using empty
  | none =>
    cases failing with
    | none =>
      rw [getPool_none s found] at empty
      exact absurd empty (events_fill s (by decide))
    | some failure =>
      rw [getPool_some s found] at opened
      cases opened

theorem trade_fill (absent : s.pool = none) (count : Nat) :
    Trade (s.holdings kind) ((s.fill count).holdings kind) := by
  have empty : { s with pool := some [] : State }.holdings kind = s.holdings kind := by
    simp [State.holdings, State.pooled, State.events, absent]
  rw [← empty]
  exact .iterate (trade_addEvent kind) count _

theorem trade_getPool {failing : Option PoolFailure} (calm : ¬ s.PoolLeaks failing) :
    Trade (s.holdings kind) ((s.getPool failing).1.holdings kind) := by
  unfold State.getPool
  split
  · exact .keep _
  · exact trade_fill kind s ‹_› poolSize
  · rename_i failure absent
    have nothing : failure.acquires = false := by simpa [State.PoolLeaks, absent] using calm
    rw [nothing]
    exact .iterate (fun s => trade_attempt kind s .event) _ s

theorem trade_pop (holdsEvents : cls.kind = .event) {outcome : Outcome}
    (kept : s.events = [] → outcome ≠ .throwsAfter) :
    Trade (s.holdings kind) ((s.pop cls outcome).holdings kind) := by
  unfold State.pop
  split
  · rename_i event events found
    have same : ({ s with pool := some events }.add cls event).holdings kind =
        s.holdings kind := by
      unfold State.holdings State.pooled
      rw [found]
      simp only [State.add, State.events, Option.getD_some, total_append, total_cons, total_nil,
        add_zero, share_some, holdsEvents]
      rw [add_assoc]
    rw [same]
    exact .keep _
  · exact trade_construct kind s cls (kept ‹_›)

theorem trade_clear : Trade (s.holdings kind) (s.clear.holdings kind) := by
  unfold State.holdings State.clear
  simp only [State.release, State.pooled, State.events, Option.getD_some, total_nil, add_zero]
  by_cases same : .event = kind
  · subst kind
    simp only [Function.update_self, total_share_same, ← Multiset.coe_add]
    rw [add_comm (total _ _)]
    exact .releaseAll _
  · simp only [Function.update_of_ne (Ne.symm same), total_share_of_ne same, add_zero]
    exact .keep _

theorem trade_withPool {failing : Option PoolFailure} {act : State → State}
    (calm : ¬ s.PoolLeaks failing)
    (acts : ∀ opened : State, opened.objects = s.objects →
      (opened.events = [] → s.pool = some []) →
      Trade (opened.holdings kind) ((act opened).holdings kind)) :
    Trade (s.holdings kind) ((s.withPool failing act).holdings kind) := by
  have opens := trade_getPool kind s calm
  unfold State.withPool
  split
  · exact opens.trans (acts _ (objects_getPool s failing) (pool_of_getPool s ‹_›))
  · exact opens

theorem trade_popped (holdsEvents : cls.kind = .event) {failing : Option PoolFailure}
    {outcome : Outcome} (calm : ¬ s.PoolLeaks failing) (kept : ¬ s.PopLeaks outcome) :
    Trade (s.holdings kind) ((s.withPool failing (·.pop cls outcome)).holdings kind) :=
  trade_withPool kind s calm fun opened _ was =>
    trade_pop kind opened holdsEvents fun empty throws => kept ⟨was empty, throws⟩

end Operations

section Objects

variable (kind : Kind)

theorem trade_release (found : s.objects[object]? = some (some this)) :
    Trade (s.holdings kind)
      (((s.release this.cls.kind this.guarded.owned).setObject object none).holdings kind) := by
  obtain ⟨others, whole, moves⟩ := total_split (share kind) found
  unfold State.holdings
  simp only [State.release, State.setObject, State.pooled, State.events, whole, moves]
  by_cases same : this.cls.kind = kind
  · subst kind
    simp only [Function.update_self, share_some, share_none, Guarded.share_same, zero_add, ← Multiset.coe_add]
    rw [add_assoc]
    exact .releaseAll _
  · simp only [Function.update_of_ne (Ne.symm same), share_some, share_none,
      Guarded.share_of_ne same, zero_add]
    exact .keep _

theorem holdings_push {event : Guarded} {left : Option Object}
    (found : s.objects[object]? = some (some ⟨cls, event⟩)) (holdsEvents : cls.kind = .event)
    (nothing : share kind left = 0) :
    ((s.push event).setObject object left).holdings kind = s.holdings kind := by
  obtain ⟨others, whole, moves⟩ := total_split (share kind) found
  have pooled : ((s.push event).setObject object left).pooled kind =
      event.share .event kind + s.pooled kind := pooled_push kind s event
  unfold State.holdings
  rw [pooled]
  simp only [State.push, State.setObject, whole, moves, nothing, zero_add, share_some, holdsEvents]
  rw [add_left_comm, add_assoc]

theorem holdings_setObject {now : Option Object} (found : s.objects[object]? = some (some this))
    (same : share kind now = share kind (some this)) :
    (s.setObject object now).holdings kind = s.holdings kind := by
  obtain ⟨others, whole, moves⟩ := total_split (share kind) found
  unfold State.holdings
  simp only [State.setObject, State.pooled, State.events, whole, moves, same]

theorem trade_destruct (found : s.objects[object]? = some (some this)) :
    Trade (s.holdings kind) (((s.destruct this).setObject object none).holdings kind) := by
  obtain ⟨cls, guarded⟩ := this
  cases cls with
  | cachedCudaEvent =>
    simp only [State.destruct]
    split
    · have same : share kind none = share kind (some ⟨.cachedCudaEvent, guarded⟩) :=
        (Guarded.share_of_moved ‹_›).symm
      rw [holdings_setObject kind found same]
      exact .keep _
    · have calm : ¬ s.PoolLeaks none := fun leaks => by cases leaks.2
      have opens := trade_getPool kind s calm
      rw [← objects_getPool s none] at found
      rw [holdings_push kind found rfl rfl]
      exact opens
  | _ => exact trade_release kind found

theorem trade_moveConstruct (found : s.objects[source]? = some (some other)) :
    Trade (s.holdings kind)
      (((s.setObject source (some ⟨other.cls, other.guarded.moveConstruct.2⟩)).add other.cls
        other.guarded.moveConstruct.1).holdings kind) := by
  have same : ((s.setObject source (some ⟨other.cls, other.guarded.moveConstruct.2⟩)).add
      other.cls other.guarded.moveConstruct.1).holdings kind = s.holdings kind := by
    obtain ⟨others, whole, moves⟩ := total_split (share kind) found
    have left : share kind (some ⟨other.cls, other.guarded.moveConstruct.2⟩) = 0 :=
      Guarded.share_of_moved rfl
    unfold State.holdings
    simp only [State.add, State.setObject, State.pooled, State.events, total_append, total_cons,
      total_nil, whole, moves, left, zero_add, add_zero]
    rw [add_comm others]
    rfl
  rw [same]
  exact .keep _

theorem total_moveAssign (distinct : target ≠ source) (equal : this.cls = other.cls)
    (into : s.objects[target]? = some (some this))
    (given : s.objects[source]? = some (some other)) :
    total (share kind) s.objects = share kind (some this) +
      total (share kind) ((s.objects.set target
        (some ⟨this.cls, (this.guarded.moveAssign other.guarded).1⟩)).set source
          (some ⟨other.cls, (this.guarded.moveAssign other.guarded).2⟩)) := by
  obtain ⟨others, whole, moves⟩ := total_split (share kind) into
  have second : (s.objects.set target
      (some ⟨this.cls, (this.guarded.moveAssign other.guarded).1⟩))[source]? =
        some (some other) := by
    rw [List.getElem?_set_ne distinct, given]
  obtain ⟨rest, middle, moved⟩ := total_split (share kind) second
  have takes : share kind (some ⟨this.cls, (this.guarded.moveAssign other.guarded).1⟩) =
      share kind (some other) := by
    rw [share_some, equal]
    rfl
  have left : share kind (some ⟨other.cls, (this.guarded.moveAssign other.guarded).2⟩) = 0 :=
    Guarded.share_of_moved rfl
  rw [moves, takes] at middle
  rw [moved, left, zero_add, whole, add_left_cancel middle]

end Objects

theorem step_moveAssign (taken : step s (.moveAssign target source) = some t) :
    ∃ this other, target ≠ source ∧ this.cls = other.cls ∧
      s.objects[target]? = some (some this) ∧ s.objects[source]? = some (some other) ∧
      t = (s.setObject target (some ⟨this.cls, (this.guarded.moveAssign other.guarded).1⟩)).setObject
        source (some ⟨other.cls, (this.guarded.moveAssign other.guarded).2⟩) := by
  simp only [step] at taken
  split at taken
  · rename_i this other into given
    split at taken
    · cases taken
    · rename_i fits
      push Not at fits
      exact ⟨this, other, fits.1, fits.2, into, given, (Option.some.inj taken).symm⟩
  · cases taken

theorem held_moveAssign (kind : Kind) (distinct : target ≠ source) (equal : this.cls = other.cls)
    (into : s.objects[target]? = some (some this))
    (given : s.objects[source]? = some (some other)) :
    (s.holdings kind).held = share kind (some this) +
      (((s.setObject target
        (some ⟨this.cls, (this.guarded.moveAssign other.guarded).1⟩)).setObject source
          (some ⟨other.cls, (this.guarded.moveAssign other.guarded).2⟩)).holdings kind).held := by
  unfold State.holdings
  simp only [total_moveAssign kind distinct equal into given, State.setObject, State.pooled,
    State.events, add_assoc]

theorem forgets_moveAssign (kind : Kind) (distinct : target ≠ source)
    (equal : this.cls = other.cls) (into : s.objects[target]? = some (some this))
    (given : s.objects[source]? = some (some other)) :
    Forgets (s.holdings kind)
      (((s.setObject target
        (some ⟨this.cls, (this.guarded.moveAssign other.guarded).1⟩)).setObject source
          (some ⟨other.cls, (this.guarded.moveAssign other.guarded).2⟩)).holdings kind) where
  acquired := rfl
  held := by
    rw [held_moveAssign kind distinct equal into given]
    exact Multiset.le_add_left _ _
  released := rfl

/-- Handles are traded, and then one is acquired that nobody holds. -/
def Abandons (s t : State) : Prop :=
  ∃ made tried, (∀ kind, Trade (s.holdings kind) (State.holdings kind tried)) ∧
    t = tried.acquire made

namespace Abandons

theorem construct (s : State) (cls : Class) : Abandons s (s.construct cls .throwsAfter) :=
  ⟨cls.kind, s, fun _ => .keep _, rfl⟩

theorem withPool {failing : Option PoolFailure} (leaks : s.PoolLeaks failing)
    (act : State → State) : Abandons s (s.withPool failing act) := by
  obtain ⟨absent, throws⟩ := leaks
  obtain ⟨failure, rfl, acquires⟩ := Option.map_eq_some_iff.mp throws
  refine ⟨.event, (State.attempt .event)^[failure.created] s,
    fun kind => .iterate (fun s => trade_attempt kind s .event) _ s, ?_⟩
  rw [State.withPool, getPool_some s absent, acquires]
  rfl

theorem popped {failing : Option PoolFailure} {outcome : Outcome}
    (leaks : s.PoolLeaks failing ∨ s.PopLeaks outcome) (cls : Class) :
    Abandons s (s.withPool failing (·.pop cls outcome)) := by
  rcases leaks with leaks | ⟨empty, rfl⟩
  · exact withPool leaks _
  · have same : s.withPool failing (·.pop cls .throwsAfter) = s.construct cls .throwsAfter := by
      rw [State.withPool, getPool_of_some s empty]
      simp [State.pop, State.events, empty]
    rw [same]
    exact construct s cls

theorem lossy (abandons : Abandons s t) (kind : Kind) :
    LossyTrade (s.holdings kind) (t.holdings kind) := by
  obtain ⟨made, tried, traded, rfl⟩ := abandons
  by_cases same : made = kind
  · subst made
    refine ⟨_, .trans (traded kind) .acquire, ?_,
      Multiset.le_cons_self _ (tried.ledger kind).acquired, ?_⟩
    · simp [State.holdings, State.acquire]
    · simp [State.holdings, State.acquire]
  · refine ⟨_, traded kind, ?_, le_rfl, ?_⟩
    · simp [State.holdings, State.acquire, Function.update_of_ne (Ne.symm same)]
    · simp [State.holdings, State.acquire, Function.update_of_ne (Ne.symm same)]

/-- What is acquired and not held is lost. -/
theorem not_balanced (abandons : Abandons s t) (before : s.Balanced) : ¬ t.Balanced := by
  obtain ⟨made, tried, traded, rfl⟩ := abandons
  intro balanced
  have all := ((traded made).conserved (before made)).known_eq
  have more := (balanced made).known_eq
  simp only [Holdings.known, State.holdings, State.acquire, State.pooled, State.events,
    Function.update_self] at all more
  omega

end Abandons

theorem trade_of_careful (kind : Kind) (careful : Careful s action)
    (taken : step s action = some t) : Trade (s.holdings kind) (t.holdings kind) := by
  cases action with
  | makeContext outcome =>
    cases outcome with
    | made => cases taken; exact trade_create kind s .context
    | throwsBefore => cases taken; exact .keep _
    | throwsAfter => cases taken; exact trade_attempt kind s .communicator
  | makeNcclComm outcome =>
    cases taken
    exact trade_construct kind s .ncclComm careful
  | makeEvent outcome =>
    cases taken
    exact trade_construct kind s .cudaEvent careful
  | makeCachedEvent failing outcome =>
    cases taken
    exact trade_popped kind s rfl careful.1 careful.2
  | popEvent failing outcome =>
    cases taken
    exact trade_popped kind s rfl careful.1 careful.2
  | pushEvent failing source =>
    simp only [step] at taken
    split at taken
    · rename_i event found
      cases taken
      refine trade_withPool kind s careful fun opened same _ => ?_
      rw [← same] at found
      have moves : ((opened.setObject source (some ⟨.cudaEvent, event.moveConstruct.2⟩)).push
          event.moveConstruct.1).holdings kind = opened.holdings kind :=
        holdings_push kind found rfl (Guarded.share_of_moved rfl)
      rw [moves]
      exact .keep _
    · cases taken
  | clearPool failing =>
    cases taken
    exact trade_withPool kind s careful fun opened _ _ => trade_clear kind opened
  | moveConstruct source =>
    simp only [step] at taken
    split at taken
    · cases taken
      exact trade_moveConstruct kind ‹_›
    · cases taken
  | moveAssign target source =>
    obtain ⟨this, other, distinct, equal, into, given, rfl⟩ := step_moveAssign taken
    have nothing : share kind (some this) = 0 :=
      Guarded.share_of_moved (careful this (by simp [into]))
    refine .of_forgets (forgets_moveAssign kind distinct equal into given) ?_
    rw [held_moveAssign kind distinct equal into given, nothing, zero_add]
  | destroy object =>
    simp only [step] at taken
    split at taken
    · cases taken
      exact trade_destruct kind ‹_›
    · cases taken

theorem abandons_of_not_careful (taken : step s action = some t) (other : ¬ Careful s action) :
    Abandons s t ∨ ∃ target source, action = .moveAssign target source := by
  cases action with
  | makeNcclComm outcome =>
    obtain rfl : outcome = .throwsAfter := not_not.mp other
    cases taken
    exact .inl (.construct s .ncclComm)
  | makeEvent outcome =>
    obtain rfl : outcome = .throwsAfter := not_not.mp other
    cases taken
    exact .inl (.construct s .cudaEvent)
  | makeCachedEvent failing outcome =>
    cases taken
    exact .inl (.popped (or_iff_not_and_not.mpr other) .cachedCudaEvent)
  | popEvent failing outcome =>
    cases taken
    exact .inl (.popped (or_iff_not_and_not.mpr other) .cudaEvent)
  | pushEvent failing source =>
    simp only [step] at taken
    split at taken
    · cases taken
      exact .inl (.withPool (not_not.mp other) _)
    · cases taken
  | clearPool failing =>
    cases taken
    exact .inl (.withPool (not_not.mp other) _)
  | moveAssign target source => exact .inr ⟨target, source, rfl⟩
  | _ => exact absurd trivial other

theorem lossyTrade_of_step (kind : Kind) (taken : step s action = some t) :
    LossyTrade (s.holdings kind) (t.holdings kind) := by
  by_cases careful : Careful s action
  · exact (trade_of_careful kind careful taken).lossy
  · rcases abandons_of_not_careful taken careful with abandons | ⟨target, source, rfl⟩
    · exact abandons.lossy kind
    · obtain ⟨this, other, distinct, equal, into, given, rfl⟩ := step_moveAssign taken
      exact ⟨_, .keep _, forgets_moveAssign kind distinct equal into given⟩

theorem careful_of_balanced (before : s.Balanced) (taken : step s action = some t)
    (balanced : t.Balanced) : Careful s action := by
  by_contra careless
  rcases abandons_of_not_careful taken careless with abandons | ⟨target, source, rfl⟩
  · exact abandons.not_balanced before balanced
  · obtain ⟨this, other, distinct, equal, into, given, rfl⟩ := step_moveAssign taken
    refine careless fun first isThis => ?_
    obtain rfl : this = first := by simpa [into] using isThis
    have all := LossyTrade.card_le_of_conserved (.keep _)
      (forgets_moveAssign this.cls.kind distinct equal into given) (before _) (balanced _)
    rw [held_moveAssign this.cls.kind distinct equal into given, Multiset.card_add, share_some,
      Guarded.share_same] at all
    by_contra held
    simp only [Guarded.owned, if_neg held, Multiset.coe_singleton, Multiset.card_singleton] at all
    omega

theorem balanced_initial : State.initial.Balanced := fun _ => rfl

theorem balanced_of_reaches (reached : Reaches step Careful .initial s) : s.Balanced :=
  Reaches.invariant State.Balanced balanced_initial
    (fun _ _ _ balanced careful taken kind =>
      (trade_of_careful kind careful taken).conserved (balanced kind)) reached

theorem total_of_gone (gone : s.Gone) : total (share kind) s.objects = 0 := by
  refine Multiset.eq_zero_of_forall_notMem fun resource holds => ?_
  obtain ⟨object, member, holds⟩ := mem_total.mp holds
  rw [gone object member] at holds
  simp at holds

theorem held_event_of_gone (gone : s.Gone) :
    (s.holdings .event).held = s.events.flatMap Guarded.owned := by
  unfold State.holdings
  rw [total_of_gone gone, zero_add, State.pooled, total_share_same]

theorem held_of_gone (gone : s.Gone) (other : kind ≠ .event) : (s.holdings kind).held = 0 := by
  unfold State.holdings
  rw [total_of_gone gone, zero_add, State.pooled, total_share_of_ne (Ne.symm other)]

theorem State.Balanced.settled (balanced : s.Balanced) (gone : s.Gone) : s.Settled where
  others kind other resource valid := by
    have one := (balanced kind).count valid
    rw [held_of_gone gone other, Multiset.count_zero, zero_add] at one
    simpa [State.holdings] using one
  events resource valid := by
    have one := (balanced .event).count valid
    rw [held_event_of_gone gone, add_comm] at one
    simpa [State.holdings] using one

theorem not_settled_of_lost (gone : s.Gone) (exclusive : (s.holdings kind).Exclusive)
    (lost : ¬ (s.holdings kind).Conserved) : ¬ s.Settled := by
  intro settled
  obtain ⟨resource, valid, notHeld, notReleased⟩ := exclusive.exists_lost lost
  have never : (s.ledger kind).released.count resource = 0 :=
    List.count_eq_zero.mpr (by simpa [State.holdings] using notReleased)
  by_cases same : kind = .event
  · subst kind
    rw [held_event_of_gone gone] at notHeld
    have one := settled.events resource valid
    rw [never, List.count_eq_zero.mpr (by simpa using notHeld)] at one
    omega
  · have one := settled.others kind same resource valid
    omega

/-- Where no move assignment overwrites a handle and no constructor abandons one, the handles are
released once or are in the pool when all objects are gone.  Any other step loses a handle, and
then the objects do not settle in any run. -/
theorem settled_iff_careful (s : State) :
    (Reaches step Careful .initial s → s.Balanced ∧ (s.Gone → s.Settled)) ∧
    (∀ t action, Reaches step Careful .initial s → step s action = some t →
      (t.Balanced ↔ Careful s action)) ∧
    ∀ t, Leads step .initial s → ¬ s.Balanced → Leads step s t → t.Gone → ¬ t.Settled := by
  refine ⟨fun reached => ?_, ?_, ?_⟩
  · have balanced := balanced_of_reaches reached
    exact ⟨balanced, balanced.settled⟩
  · intro t action reached taken
    have before := balanced_of_reaches reached
    exact ⟨careful_of_balanced before taken, fun careful kind =>
      (trade_of_careful kind careful taken).conserved (before kind)⟩
  · intro t reached lost later gone
    obtain ⟨kind, lost⟩ := not_forall.mp lost
    have lossy := fun s action t (taken : step s action = some t) => lossyTrade_of_step kind taken
    have initial := (balanced_initial kind).exclusive
    have exclusive := exclusive_of_leads lossy initial reached
    exact not_settled_of_lost gone (exclusive_of_leads lossy initial (reached.trans later))
      (not_conserved_of_leads lossy exclusive lost later)

/-- A context is moved to a new one and assigned back; an event is taken from the pool, moved, and
given back. -/
theorem settled_after_moves :
    ∃ s, Reaches step Careful .initial s ∧ s.Gone ∧ (s.ledger .event).acquired = poolSize ∧
      s.Settled := by
  obtain ⟨s, reached, objects, acquired⟩ := exists_of_run step Careful .initial
    [.makeContext .made, .moveConstruct 0, .moveAssign 0 1, .makeCachedEvent none .made,
      .moveConstruct 2, .makeNcclComm .made, .destroy 4, .destroy 3, .destroy 2, .destroy 1,
      .destroy 0]
    (fun s => s.objects = List.replicate 5 none ∧ (s.ledger .event).acquired = poolSize)
      (by decide +kernel)
  have gone : s.Gone := by simp [State.Gone, objects]
  exact ⟨s, reached, gone, acquired, ((settled_iff_careful s).1 reached).2 gone⟩

/-- One context is assigned to another, and both are destroyed: the communicator that the target
had duplicated is never freed. -/
theorem context_assign_loses_communicator :
    ∃ s, Leads step .initial s ∧ s.Gone ∧ (s.ledger .communicator).acquired = 2 ∧
      (s.ledger .communicator).released = [1] ∧ ¬ s.Settled := by
  obtain ⟨s, reached, objects, acquired, released⟩ := exists_of_run step (fun _ _ => True) .initial
    [.makeContext .made, .makeContext .made, .moveAssign 0 1, .destroy 1, .destroy 0]
    (fun s => s.objects = [none, none] ∧ (s.ledger .communicator).acquired = 2 ∧
      (s.ledger .communicator).released = [1]) (by decide +kernel)
  refine ⟨s, reached, by simp [State.Gone, objects], acquired, released,
    fun settled => ?_⟩
  have one := settled.others .communicator nofun 0 (by omega)
  rw [released] at one
  exact absurd one (by decide)

end Oomph.Handles
