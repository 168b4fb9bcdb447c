import Oomph.Machine.Owners

namespace Oomph.Libfabric.MemorySegment

open Machine

/-! A `memory_segment` owns the region that its constructor has registered, and closes it in its
destructor.  A region is known by the number of its registration, and an address is a number with
null for 0.
-/

structure MemoryHandle where
  address : Nat
  region : Option Nat
  size : UInt32
  usedSpace : UInt32
deriving DecidableEq, Repr

structure Segment extends MemoryHandle where
  baseAddr : Nat
deriving DecidableEq, Repr

/-- The move constructor of `memory_handle`: the new object, and what is left of the other. -/
def MemoryHandle.moveConstruct (other : MemoryHandle) : MemoryHandle × MemoryHandle :=
  (other, { other with region := none })

/-- `memory_handle::deregister`, with the calls of `fi_close` that it makes. -/
def MemoryHandle.deregister (closeFails : Bool) (h : MemoryHandle) : MemoryHandle × List Nat :=
  match h.region with
  | none => (h, [])
  | some region => (if closeFails then h else { h with region := none }, [region])

namespace Segment

def moveConstruct (other : Segment) : Segment × Segment :=
  ({ toMemoryHandle := other.toMemoryHandle.moveConstruct.1, baseAddr := other.baseAddr },
    { toMemoryHandle := other.toMemoryHandle.moveConstruct.2, baseAddr := 0 })

/-- The move assignment: the object, and what is left of the other. -/
def moveAssign (this other : Segment) : Segment × Segment :=
  -- `memory_handle(std::move(other))` makes a temporary object, which is dropped at once.
  let left := other.toMemoryHandle.moveConstruct.2
  ({ this with region := left.region },
    { other with toMemoryHandle := { left with region := none } })

end Segment

inductive Call
  | register
  | bind
  | enable
deriving DecidableEq, Repr

structure State where
  segments : List (Option Segment)
  /-- The successful calls of `fi_mr_regattr`. -/
  registered : Nat
  /-- The regions for which `fi_close` was called, newest first. -/
  closed : List Nat
deriving DecidableEq, Repr

namespace State

def initial : State := ⟨[], 0, []⟩

/-- The constructor that registers a buffer.  There is no state after a call that fails: making
the `fabric_error` that would be thrown calls `std::terminate`. -/
def construct (buffer : Nat) (length : UInt64) (bindMr : Bool) (failing : Option Call)
    (s : State) : Option State :=
  if failing = some .register then none
  else if bindMr ∧ (failing = some .bind ∨ failing = some .enable) then none
  else some
    { s with
      registered := s.registered + 1
      segments := s.segments ++ [some
        { address := buffer
          region := some s.registered
          size := length.toUInt32
          usedSpace := length.toUInt32
          baseAddr := buffer }] }

end State

inductive Action
  | construct (buffer : Nat) (length : UInt64) (bindMr : Bool) (failing : Option Call)
  | moveConstruct (source : Nat)
  | moveAssign (target source : Nat)
  | destroy (segment : Nat) (closeFails : Bool)
deriving DecidableEq, Repr

def step (s : State) (action : Action) : Option State :=
  match action with
  | .construct buffer length bindMr failing => s.construct buffer length bindMr failing
  | .moveConstruct source =>
    match s.segments[source]? with
    | some (some other) => some { s with
        segments := s.segments.set source (some other.moveConstruct.2) ++
          [some other.moveConstruct.1] }
    | _ => none
  | .moveAssign target source =>
    match s.segments[target]?, s.segments[source]? with
    | some (some this), some (some other) =>
      if target = source then none
      else some { s with
        segments := (s.segments.set target (some (this.moveAssign other).1)).set source
          (some (this.moveAssign other).2) }
    | _, _ => none
  | .destroy segment closeFails =>
    match s.segments[segment]? with
    | some (some this) => some { s with
        segments := s.segments.set segment none
        closed := (this.deregister closeFails).2 ++ s.closed }
    | _ => none

def State.Gone (s : State) : Prop :=
  ∀ segment ∈ s.segments, segment = none

structure State.Closes (s : State) : Prop where
  owned : ∀ this, some this ∈ s.segments → ∀ region ∈ this.region, region ∉ s.closed
  once : s.Gone → ∀ region < s.registered, s.closed.count region = 1

/-- After `a = std::move(b)` the segment `a` is what `b` was, and what it held before is closed. -/
def AssignLaw (s : State) (action : Action) (t : State) : Prop :=
  match action with
  | .moveAssign target source =>
    ∀ this ∈ s.segments[target]?.join, ∀ other ∈ s.segments[source]?.join,
      ∃ now ∈ t.segments[target]?.join, now.region = other.region ∧
        now.address = other.address ∧ now.size = other.size ∧ now.baseAddr = other.baseAddr ∧
        ∀ region ∈ this.region, region ∈ t.closed
  | _ => True

/-- A move assignment has nothing to do. -/
def Careful (s : State) : Action → Prop
  | .moveAssign target source =>
    ∀ this ∈ s.segments[target]?.join, ∀ other ∈ s.segments[source]?.join,
      this.region = none ∧ other.region = none ∧ this.address = other.address ∧
        this.size = other.size ∧ this.baseAddr = other.baseAddr
  | _ => True

instance (s : State) (action : Action) : Decidable (Careful s action) := by
  unfold Careful
  split <;> infer_instance

def regions (segment : Option Segment) : Multiset Nat :=
  match segment with
  | none => 0
  | some this => this.region.toList

def State.holdings (s : State) : Holdings where
  acquired := s.registered
  held := total regions s.segments
  released := s.closed

abbrev State.Balanced (s : State) : Prop :=
  s.holdings.Conserved

variable {s t : State} {action : Action} {this other : Segment} {segment target source : Nat}

theorem trade_destroy (closeFails : Bool) (found : s.segments[segment]? = some (some this)) :
    Trade s.holdings { s with
      segments := s.segments.set segment none
      closed := (this.deregister closeFails).2 ++ s.closed : State }.holdings := by
  obtain ⟨others, whole, moves⟩ := total_split regions found
  unfold State.holdings
  simp only [whole, moves]
  unfold MemoryHandle.deregister
  cases held : this.region with
  | none =>
    simp only [regions, held, Option.toList_none, Multiset.coe_nil, List.nil_append]
    exact .keep _
  | some region =>
    simp only [regions, held, Option.toList_some, Multiset.coe_singleton,
      Multiset.singleton_add, zero_add, List.singleton_append]
    exact .release region

theorem total_moveConstruct (found : s.segments[source]? = some (some other)) :
    total regions (s.segments.set source (some other.moveConstruct.2) ++
      [some other.moveConstruct.1]) = total regions s.segments := by
  obtain ⟨others, whole, moves⟩ := total_split regions found
  rw [total_append, moves, whole]
  simp [regions, Segment.moveConstruct, MemoryHandle.moveConstruct, add_comm]

theorem trade_moveConstruct (found : s.segments[source]? = some (some other)) :
    Trade s.holdings { s with
      segments := s.segments.set source (some other.moveConstruct.2) ++
        [some other.moveConstruct.1] : State }.holdings := by
  unfold State.holdings
  rw [total_moveConstruct found]
  exact .keep _

theorem trade_construct {made : Segment} (region : made.region = some s.registered) :
    Trade s.holdings { s with
      registered := s.registered + 1
      segments := s.segments ++ [some made] : State }.holdings := by
  unfold State.holdings
  rw [total_append]
  simp only [total_cons, total_nil, regions, region, Option.toList_some, Multiset.coe_singleton,
    add_zero]
  rw [add_comm (total regions s.segments), Multiset.singleton_add]
  exact .acquire

theorem total_moveAssign (distinct : target ≠ source)
    (into : s.segments[target]? = some (some this))
    (given : s.segments[source]? = some (some other)) :
    total regions s.segments = regions (some this) + regions (some other) +
      total regions ((s.segments.set target (some (this.moveAssign other).1)).set source
        (some (this.moveAssign other).2)) := by
  obtain ⟨others, whole, moves⟩ := total_split regions into
  have second : (s.segments.set target (some (this.moveAssign other).1))[source]? =
      some (some other) := by
    rw [List.getElem?_set_ne distinct, given]
  obtain ⟨rest, middle, moved⟩ := total_split regions second
  have none_target : regions (some (this.moveAssign other).1) = 0 := by
    simp [regions, Segment.moveAssign, MemoryHandle.moveConstruct]
  have none_source : regions (some (this.moveAssign other).2) = 0 := by
    simp [regions, Segment.moveAssign]
  rw [moves, none_target, zero_add] at middle
  rw [moved, none_source, zero_add, whole, middle, add_assoc]

theorem step_moveAssign (taken : step s (.moveAssign target source) = some t) :
    ∃ this other, target ≠ source ∧ s.segments[target]? = some (some this) ∧
      s.segments[source]? = some (some other) ∧
      t = { s with
        segments := (s.segments.set target (some (this.moveAssign other).1)).set source
          (some (this.moveAssign other).2) } := by
  simp only [step] at taken
  split at taken
  · rename_i this other into given
    split at taken
    · cases taken
    · exact ⟨this, other, ‹_›, into, given, (Option.some.inj taken).symm⟩
  · cases taken

theorem getElem?_moveAssign (distinct : target ≠ source)
    (into : s.segments[target]? = some (some this)) (now left : Option Segment) :
    ((s.segments.set target now).set source left)[target]? = some now := by
  rw [List.getElem?_set_ne (Ne.symm distinct)]
  exact List.getElem?_set_self (List.getElem?_eq_some_iff.mp into).1

theorem forgets_moveAssign (distinct : target ≠ source)
    (into : s.segments[target]? = some (some this))
    (given : s.segments[source]? = some (some other)) :
    Forgets s.holdings { s with
      segments := (s.segments.set target (some (this.moveAssign other).1)).set source
        (some (this.moveAssign other).2) : State }.holdings where
  acquired := rfl
  held := by
    unfold State.holdings
    rw [total_moveAssign distinct into given]
    exact Multiset.le_add_left _ _
  released := rfl

theorem trade_of_careful (careful : Careful s action) (taken : step s action = some t) :
    Trade s.holdings t.holdings ∧ AssignLaw s action t := by
  cases action with
  | construct buffer length bindMr failing =>
    simp only [step, State.construct] at taken
    split at taken
    · cases taken
    · split at taken
      · cases taken
      · cases taken
        exact ⟨trade_construct rfl, trivial⟩
  | moveConstruct source =>
    simp only [step] at taken
    split at taken
    · cases taken
      exact ⟨trade_moveConstruct ‹_›, trivial⟩
    · cases taken
  | moveAssign target source =>
    obtain ⟨this, other, distinct, into, given, rfl⟩ := step_moveAssign taken
    obtain ⟨noTarget, noSource, address, size, base⟩ :=
      careful this (by simp [into]) other (by simp [given])
    constructor
    · have same := total_moveAssign distinct into given
      simp only [regions, noTarget, noSource, Option.toList_none, Multiset.coe_nil,
        zero_add] at same
      unfold State.holdings
      rw [← same]
      exact .keep _
    · intro first isThis second isOther
      obtain rfl : this = first := by simpa [into] using isThis
      obtain rfl : other = second := by simpa [given] using isOther
      refine ⟨(this.moveAssign other).1, ?_, ?_⟩
      · rw [getElem?_moveAssign distinct into]
        rfl
      · simp [Segment.moveAssign, MemoryHandle.moveConstruct, noTarget, noSource, address, size,
          base]
  | destroy segment closeFails =>
    simp only [step] at taken
    split at taken
    · cases taken
      exact ⟨trade_destroy closeFails ‹_›, trivial⟩
    · cases taken

theorem lossyTrade_of_step (taken : step s action = some t) :
    LossyTrade s.holdings t.holdings := by
  by_cases careful : Careful s action
  · exact (trade_of_careful careful taken).1.lossy
  · cases action with
    | moveAssign target source =>
      obtain ⟨this, other, distinct, into, given, rfl⟩ := step_moveAssign taken
      exact ⟨_, .keep _, forgets_moveAssign distinct into given⟩
    | _ => exact absurd trivial careful

/-- Any other step forgets a region, or leaves the wrong segment. -/
theorem careful_of_balanced (before : s.Balanced) (taken : step s action = some t)
    (balanced : t.Balanced) (assigns : AssignLaw s action t) : Careful s action := by
  cases action with
  | moveAssign target source =>
    obtain ⟨this, other, distinct, into, given, rfl⟩ := step_moveAssign taken
    intro first isThis second isOther
    obtain rfl : this = first := by simpa [into] using isThis
    obtain rfl : other = second := by simpa [given] using isOther
    have kept := LossyTrade.card_le_of_conserved (.keep _)
      (forgets_moveAssign distinct into given) before balanced
    have whole := congrArg Multiset.card (total_moveAssign distinct into given)
    rw [Multiset.card_add, Multiset.card_add] at whole
    simp only [State.holdings] at kept
    have noTarget : this.region = none := by
      have empty : (regions (some this)).card = 0 := by omega
      simpa [regions] using empty
    have noSource : other.region = none := by
      have empty : (regions (some other)).card = 0 := by omega
      simpa [regions] using empty
    obtain ⟨now, found, -, address, size, base, -⟩ := assigns this isThis other isOther
    rw [getElem?_moveAssign distinct into] at found
    cases found
    exact ⟨noTarget, noSource, address, size, base⟩
  | _ => trivial

theorem balanced_initial : State.initial.Balanced := rfl

theorem balanced_of_reaches (reached : Reaches step Careful .initial s) : s.Balanced :=
  Reaches.invariant State.Balanced balanced_initial
    (fun _ _ _ balanced careful taken => (trade_of_careful careful taken).1.conserved balanced)
    reached

theorem mem_held {region : Nat} :
    region ∈ s.holdings.held ↔ ∃ this, some this ∈ s.segments ∧ this.region = some region := by
  unfold State.holdings
  rw [mem_total]
  constructor
  · rintro ⟨segment, member, holds⟩
    cases segment with
    | none => simp [regions] at holds
    | some this => exact ⟨this, member, by simpa [regions] using holds⟩
  · rintro ⟨this, member, holds⟩
    exact ⟨some this, member, by simp [regions, holds]⟩

theorem not_held_of_gone (gone : s.Gone) (region : Nat) : region ∉ s.holdings.held := by
  intro holds
  obtain ⟨this, member, -⟩ := mem_held.mp holds
  cases gone _ member

theorem State.Balanced.closes (balanced : s.Balanced) : s.Closes where
  owned this member region held := by
    have free := balanced.exclusive.not_released (mem_held.mpr ⟨this, member, held⟩)
    simpa [State.holdings] using free
  once gone region valid := by
    have one := balanced.count valid
    rw [Multiset.count_eq_zero_of_notMem (not_held_of_gone gone region), zero_add] at one
    simpa [State.holdings] using one

/-- In a run whose move assignments have nothing to do, each region is closed once.  Any other move
assignment forgets a region, which then is never closed, or leaves the wrong segment. -/
theorem closes_iff_careful (s : State) :
    (Reaches step Careful .initial s → s.Closes) ∧
    (∀ t action, Reaches step Careful .initial s → step s action = some t →
      (t.Balanced ∧ AssignLaw s action t ↔ Careful s action)) ∧
    ∀ t, Leads step .initial s → ¬ s.Balanced → Leads step s t → t.Gone →
      ∃ region < t.registered, region ∉ t.closed := by
  refine ⟨fun reached => (balanced_of_reaches reached).closes, ?_, ?_⟩
  · intro t action reached taken
    have before := balanced_of_reaches reached
    constructor
    · rintro ⟨balanced, assigns⟩
      exact careful_of_balanced before taken balanced assigns
    · intro careful
      obtain ⟨trade, assigns⟩ := trade_of_careful careful taken
      exact ⟨trade.conserved before, assigns⟩
  · intro t reached lost later gone
    have lossy := fun s action t (taken : step s action = some t) => lossyTrade_of_step taken
    have exclusive := exclusive_of_leads lossy balanced_initial.exclusive reached
    have still := not_conserved_of_leads lossy exclusive lost later
    have apart := exclusive_of_leads lossy balanced_initial.exclusive (reached.trans later)
    obtain ⟨region, valid, -, never⟩ := apart.exists_lost still
    exact ⟨region, valid, by simpa [State.holdings] using never⟩

/-- Two segments, of which one is moved; all three objects are destroyed. -/
theorem closes_after_move :
    ∃ s, Reaches step Careful .initial s ∧ s.Gone ∧ s.registered = 2 ∧ s.Closes := by
  obtain ⟨s, reached, segments, registered⟩ := exists_of_run step Careful .initial
    [.construct 4096 64 true none, .moveConstruct 0, .construct 8192 128 false none,
      .destroy 0 false, .destroy 2 true, .destroy 1 false]
    (fun s => s.segments = [none, none, none] ∧ s.registered = 2) (by decide +kernel)
  exact ⟨s, reached, by simp [State.Gone, segments], registered, (closes_iff_careful s).1 reached⟩

/-- A segment is assigned to another one, and both are destroyed: neither region is closed. -/
theorem assign_loses_regions :
    ∃ s t u, Leads step .initial s ∧ step s (.moveAssign 0 1) = some t ∧
      ¬ AssignLaw s (.moveAssign 0 1) t ∧ Leads step t u ∧ u.Gone ∧ u.registered = 2 ∧
      u.closed = [] := by
  have ran : run step (fun _ _ => True) .initial
      [.construct 4096 64 false none, .construct 8192 128 false none] = some
      { segments := [some ⟨⟨4096, some 0, 64, 64⟩, 4096⟩, some ⟨⟨8192, some 1, 128, 128⟩, 8192⟩]
        registered := 2
        closed := [] } := by decide +kernel
  have ended : run step (fun _ _ => True)
      { segments := [some ⟨⟨4096, none, 64, 64⟩, 4096⟩, some ⟨⟨8192, none, 128, 128⟩, 8192⟩]
        registered := 2
        closed := [] } [.destroy 0 false, .destroy 1 false] = some
      { segments := [none, none], registered := 2, closed := [] } := by decide +kernel
  refine ⟨_, _, _, reaches_of_run ran, rfl, fun law => ?_, reaches_of_run ended, ?_, rfl, rfl⟩
  · obtain ⟨now, found, region, -⟩ := law _ rfl _ rfl
    cases found
    cases region
  · simp [State.Gone]

end Oomph.Libfabric.MemorySegment
