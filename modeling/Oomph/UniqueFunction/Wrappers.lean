import Oomph.Machine.Run
import Oomph.UniqueFunction.Layout
import Mathlib.Logic.Function.Basic

namespace Oomph.UniqueFunction

open Machine

/-! A move first moves the bytes of the variant, and then, if they are a buffer, moves the callable
that lives there.  The callables are numbered in the order in which they are handed in.  They
contain no wrappers: a wrapper inside the callable that a move assignment replaces would be
destroyed before it is read.
-/

/-- An object of type `concrete_t`: its callable, and whether that was moved from. -/
structure Instance where
  callable : Nat
  moved : Bool
deriving DecidableEq, Repr

inductive Holder
  | monostate
  | pointer (address : Nat)
  | buffer
deriving DecidableEq, Repr

structure Wrapper where
  holder : Holder
  /-- The object that lives in the bytes of the buffer. -/
  buffer : Option Instance
deriving DecidableEq, Repr

structure State where
  wrappers : List (Option Wrapper)
  heap : Nat → Option Instance
  handed : Nat
  /-- The callables that were destroyed, newest first. -/
  destroyed : List Nat
  calls : List (Nat × Nat)
  /-- An object was used that does not live, or was placed where it does not fit; nothing is known
  of the program from then on. -/
  broken : Bool

namespace State

def initial : State where
  wrappers := []
  heap _ := none
  handed := 0
  destroyed := []
  calls := []
  broken := false

def setWrapper (index : Nat) (wrapper : Option Wrapper) (s : State) : State :=
  { s with wrappers := s.wrappers.set index wrapper }

def addWrapper (wrapper : Option Wrapper) (s : State) : State :=
  { s with wrappers := s.wrappers ++ [wrapper] }

/-- The life of an object ends.  What was moved from it is not destroyed with it. -/
def endLife (object : Option Instance) (s : State) : State :=
  match object with
  | none => { s with broken := true }
  | some i => { s with destroyed := if i.moved then s.destroyed else i.callable :: s.destroyed }

def destroy (this : Wrapper) (s : State) : State :=
  match this.holder with
  | .monostate => s
  | .pointer address =>
    { s.endLife (s.heap address) with heap := Function.update s.heap address none }
  | .buffer => s.endLife this.buffer

/-- What `move_construct` does besides the two wrappers: it destroys the object from which it has
moved the callable. -/
def moveConstruct (other : Wrapper) (s : State) : State :=
  match other.holder with
  | .buffer => s.endLife (other.buffer.map fun i => { i with moved := true })
  | _ => s

end State

namespace Wrapper

def empty : Wrapper := ⟨.monostate, none⟩

/-- What `destroy` leaves; the variant keeps its alternative. -/
def afterDestroy (this : Wrapper) : Wrapper :=
  match this.holder with
  | .buffer => { this with buffer := none }
  | _ => this

/-- The holder of another wrapper is moved, and then `move_construct`. -/
def take (this other : Wrapper) : Wrapper :=
  match other.holder with
  | .buffer => { holder := .buffer, buffer := other.buffer }
  | holder => { this with holder }

def left (other : Wrapper) : Wrapper :=
  match other.holder with
  | .buffer => ⟨.monostate, none⟩
  | _ => { other with holder := .monostate }

end Wrapper

namespace State

/-- A wrapper gets a new callable: on the heap, or placed in its buffer. -/
def emplace (S : Nat) (f : Callable) (address : Nat) (this : Wrapper) (s : State) : Wrapper × State :=
  if f.small S then
    ({ holder := .buffer, buffer := some ⟨s.handed, false⟩ },
      { s with
        handed := s.handed + 1
        broken := s.broken || !decide (f.Fits S) })
  else
    ({ this with holder := .pointer address },
      { s with
        handed := s.handed + 1
        heap := Function.update s.heap address (some ⟨s.handed, false⟩) })

end State

inductive Action
  | constructEmpty
  /-- The address is the one that the allocator gives, if it is asked. -/
  | construct (f : Callable) (address : Nat)
  | moveConstruct (source : Nat)
  | moveAssign (target source : Nat)
  | assign (target : Nat) (f : Callable) (address : Nat)
  | invoke (wrapper : Nat)
  | destroy (wrapper : Nat)
deriving DecidableEq

def Wrapper.object (heap : Nat → Option Instance) (this : Wrapper) : Option Instance :=
  match this.holder with
  | .monostate => none
  | .pointer address => heap address
  | .buffer => this.buffer

def State.invoke (wrapper : Nat) (this : Wrapper) (s : State) : State :=
  match this.object s.heap with
  | none => { s with broken := true }
  | some i => { s with calls := (wrapper, i.callable) :: s.calls }

def step (S : Nat) (s : State) (action : Action) : Option State :=
  if s.broken then none
  else match action with
  | .constructEmpty => some (s.addWrapper (some .empty))
  | .construct f address =>
    if f.small S = false ∧ (s.heap address).isSome then none
    else some ((s.emplace S f address .empty).2.addWrapper
      (some (s.emplace S f address .empty).1))
  | .moveConstruct source =>
    match s.wrappers[source]? with
    | some (some other) =>
      some (((s.moveConstruct other).setWrapper source (some other.left)).addWrapper
        (some (Wrapper.empty.take other)))
    | _ => none
  | .moveAssign target source =>
    match s.wrappers[target]?, s.wrappers[source]? with
    | some (some this), some (some other) =>
      if target = source then none
      else some ((((s.destroy this).moveConstruct other).setWrapper target
        (some (this.afterDestroy.take other))).setWrapper source (some other.left))
    | _, _ => none
  | .assign target f address =>
    match s.wrappers[target]? with
    | some (some this) =>
      if f.small S = false ∧ ((s.destroy this).heap address).isSome then none
      else some (((s.destroy this).emplace S f address this.afterDestroy).2.setWrapper target
        (some ((s.destroy this).emplace S f address this.afterDestroy).1))
    | _ => none
  | .invoke wrapper =>
    match s.wrappers[wrapper]? with
    | some (some this) => if this.holder = .monostate then none else some (s.invoke wrapper this)
    | _ => none
  | .destroy wrapper =>
    match s.wrappers[wrapper]? with
    | some (some this) => some ((s.destroy this).setWrapper wrapper none)
    | _ => none

def Wrapper.owns (heap : Nat → Option Instance) (this : Wrapper) : Option Nat :=
  (this.object heap).bind fun i => if i.moved then none else some i.callable

/-- The alternative of the variant says where the object lives. -/
def Wrapper.Whole (heap : Nat → Option Instance) (this : Wrapper) : Prop :=
  match this.holder with
  | .monostate => this.buffer = none
  | .pointer address => this.buffer = none ∧ ∃ callable, heap address = some ⟨callable, false⟩
  | .buffer => ∃ callable, this.buffer = some ⟨callable, false⟩

def State.Refers (s : State) (index address : Nat) : Prop :=
  ∃ this, s.wrappers[index]? = some (some this) ∧ this.holder = .pointer address

/-- Every live object has one wrapper that refers to it. -/
structure State.Sound (s : State) : Prop where
  unbroken : s.broken = false
  whole : ∀ (index : Nat) this, s.wrappers[index]? = some (some this) → this.Whole s.heap
  apart : ∀ first second address, s.Refers first address → s.Refers second address →
    first = second
  pointed : ∀ address i, s.heap address = some i → ∃ index, s.Refers index address

variable {S : Nat} {s t : State} {action : Action} {this other : Wrapper}
  {index address target source : Nat} {heap : Nat → Option Instance}

section Wrappers

theorem Wrapper.Whole.left (whole : other.Whole heap) : other.left = .empty := by
  obtain ⟨holder, buffer⟩ := other
  cases holder with
  | monostate => cases whole; rfl
  | pointer address => cases whole.1; rfl
  | buffer => rfl

theorem Wrapper.Whole.take (whole : other.Whole heap) (vacant : this.buffer = none) :
    this.take other = other := by
  obtain ⟨holder, buffer⟩ := other
  obtain ⟨_, _⟩ := this
  cases vacant
  cases holder with
  | monostate => cases whole; rfl
  | pointer address => cases whole.1; rfl
  | buffer => rfl

theorem Wrapper.Whole.afterDestroy (whole : this.Whole heap) : this.afterDestroy.buffer = none := by
  obtain ⟨holder, buffer⟩ := this
  cases holder with
  | monostate => exact whole
  | pointer address => exact whole.1
  | buffer => rfl

theorem Wrapper.Whole.moveConstruct (whole : other.Whole heap) : s.moveConstruct other = s := by
  obtain ⟨holder, buffer⟩ := other
  cases holder with
  | buffer =>
    obtain ⟨callable, rfl⟩ := whole
    rfl
  | _ => rfl

theorem Wrapper.owns_update (elsewhere : this.holder ≠ .pointer address)
    (object : Option Instance) :
    this.owns (Function.update heap address object) = this.owns heap := by
  obtain ⟨holder, buffer⟩ := this
  cases holder with
  | pointer own =>
    have different : own ≠ address := fun same => elsewhere (by rw [same])
    simp [Wrapper.owns, Wrapper.object, different]
  | _ => rfl

theorem Wrapper.Whole.update (whole : this.Whole heap)
    (elsewhere : this.holder ≠ .pointer address) (object : Option Instance) :
    this.Whole (Function.update heap address object) := by
  obtain ⟨holder, buffer⟩ := this
  cases holder with
  | pointer own =>
    have different : own ≠ address := fun same => elsewhere (by rw [same])
    simpa [Wrapper.Whole, different] using whole
  | _ => exact whole

def Wrapper.vacated (heap : Nat → Option Instance) (this : Wrapper) : Nat → Option Instance :=
  match this.holder with
  | .pointer address => Function.update heap address none
  | _ => heap

theorem Wrapper.vacated_self (refers : this.holder = .pointer address) :
    this.vacated heap address = none := by
  simp [Wrapper.vacated, refers]

theorem Wrapper.vacated_of_ne (elsewhere : this.holder ≠ .pointer address) :
    this.vacated heap address = heap address := by
  obtain ⟨holder, buffer⟩ := this
  cases holder with
  | pointer own =>
    have different : address ≠ own := fun same => elsewhere (by rw [same])
    simp [Wrapper.vacated, different]
  | _ => rfl

theorem Wrapper.Whole.vacated (whole : other.Whole heap)
    (apart : ∀ address, this.holder = .pointer address → other.holder ≠ .pointer address) :
    other.Whole (this.vacated heap) := by
  obtain ⟨holder, buffer⟩ := this
  cases holder with
  | pointer address => exact whole.update (apart address rfl) none
  | _ => exact whole

theorem Wrapper.owns_vacated
    (apart : ∀ address, this.holder = .pointer address → other.holder ≠ .pointer address) :
    other.owns (this.vacated heap) = other.owns heap := by
  obtain ⟨holder, buffer⟩ := this
  cases holder with
  | pointer address => exact Wrapper.owns_update (apart address rfl) none
  | _ => rfl

theorem Wrapper.Whole.destroy (whole : this.Whole s.heap) :
    s.destroy this = { s with
      heap := this.vacated s.heap
      destroyed := (this.owns s.heap).toList ++ s.destroyed } := by
  obtain ⟨holder, buffer⟩ := this
  cases holder with
  | monostate => rfl
  | pointer address =>
    obtain ⟨-, callable, found⟩ := whole
    simp [State.destroy, State.endLife, found, Wrapper.vacated, Wrapper.owns, Wrapper.object]
  | buffer =>
    obtain ⟨callable, rfl⟩ := whole
    rfl

end Wrappers

namespace State

theorem getElem?_setWrapper {wrapper : Option Wrapper} {other : Nat} :
    (s.setWrapper index wrapper).wrappers[other]? = some (some this) ↔
      other = index ∧ index < s.wrappers.length ∧ wrapper = some this ∨
      other ≠ index ∧ s.wrappers[other]? = some (some this) := by
  unfold setWrapper
  by_cases here : other = index
  · subst other
    by_cases inside : index < s.wrappers.length
    · simp [inside]
    · simp [inside]
  · simp [here, List.getElem?_set_ne (Ne.symm here)]

theorem refers_setWrapper {wrapper : Option Wrapper} {other : Nat} :
    (s.setWrapper index wrapper).Refers other address ↔
      other = index ∧ index < s.wrappers.length ∧
        (∃ this, wrapper = some this ∧ this.holder = .pointer address) ∨
      other ≠ index ∧ s.Refers other address := by
  unfold Refers
  simp only [getElem?_setWrapper]
  constructor
  · rintro ⟨this, ⟨here, inside, same⟩ | ⟨away, found⟩, refers⟩
    · exact .inl ⟨here, inside, this, same, refers⟩
    · exact .inr ⟨away, this, found, refers⟩
  · rintro (⟨here, inside, this, same, refers⟩ | ⟨away, this, found, refers⟩)
    · exact ⟨this, .inl ⟨here, inside, same⟩, refers⟩
    · exact ⟨this, .inr ⟨away, found⟩, refers⟩

theorem inside_of_found {wrapper : Option Wrapper} (found : s.wrappers[index]? = some wrapper) :
    index < s.wrappers.length :=
  (List.getElem?_eq_some_iff.mp found).1

namespace Sound

theorem of_same (sound : s.Sound) (wrappers : t.wrappers = s.wrappers) (heap : t.heap = s.heap)
    (broken : t.broken = s.broken) : t.Sound := by
  have refers : ∀ index address, t.Refers index address ↔ s.Refers index address := by
    intro index address
    rw [Refers, Refers, wrappers]
  refine ⟨broken.trans sound.unbroken, ?_, ?_, ?_⟩
  · rw [wrappers, heap]
    exact sound.whole
  · simp only [refers]
    exact sound.apart
  · simp only [refers, heap]
    exact sound.pointed

theorem found_of_refers (sound : s.Sound) (refers : s.Refers index address) :
    ∃ i, s.heap address = some i := by
  obtain ⟨⟨holder, buffer⟩, found, rfl⟩ := refers
  obtain ⟨-, callable, lives⟩ := sound.whole _ _ found
  exact ⟨_, lives⟩

theorem vacate (sound : s.Sound) (found : s.wrappers[index]? = some (some this)) :
    ((s.destroy this).setWrapper index none).Sound := by
  have elsewhere : ∀ other address, other ≠ index → s.Refers other address →
      this.holder ≠ .pointer address := fun other address away refers same =>
    away (sound.apart _ _ _ refers ⟨this, found, same⟩)
  rw [(sound.whole index this found).destroy]
  refine ⟨sound.unbroken, ?_, ?_, ?_⟩
  · intro other wrapper at_other
    rcases getElem?_setWrapper.mp at_other with ⟨-, -, ⟨⟩⟩ | ⟨away, at_other⟩
    exact (sound.whole other wrapper at_other).vacated fun address same refers =>
      elsewhere other address away ⟨wrapper, at_other, refers⟩ same
  · intro first second address one two
    rcases refers_setWrapper.mp one with ⟨-, -, _, ⟨⟩, -⟩ | ⟨-, one⟩
    rcases refers_setWrapper.mp two with ⟨-, -, _, ⟨⟩, -⟩ | ⟨-, two⟩
    exact sound.apart _ _ _ one two
  · intro address i lives
    by_cases same : this.holder = .pointer address
    · simp only [setWrapper, Wrapper.vacated_self same] at lives
      cases lives
    · simp only [setWrapper, Wrapper.vacated_of_ne same] at lives
      obtain ⟨other, refers⟩ := sound.pointed address i lives
      refine ⟨other, refers_setWrapper.mpr (.inr ⟨?_, refers⟩)⟩
      rintro rfl
      obtain ⟨wrapper, at_other, refers⟩ := refers
      rw [found] at at_other
      cases at_other
      exact same refers

theorem ne_of_vacant {other : Nat} (vacant : s.wrappers[index]? = some none)
    (refers : s.Refers other address) : other ≠ index := by
  rintro rfl
  obtain ⟨wrapper, found, -⟩ := refers
  rw [vacant] at found
  cases found

theorem put (sound : s.Sound) (vacant : s.wrappers[index]? = some none)
    (whole : this.Whole s.heap) (inside : ∀ address, this.holder ≠ .pointer address) :
    (s.setWrapper index (some this)).Sound := by
  refine ⟨sound.unbroken, ?_, ?_, ?_⟩
  · intro other wrapper at_other
    rcases getElem?_setWrapper.mp at_other with ⟨-, -, ⟨⟩⟩ | ⟨-, at_other⟩
    · exact whole
    · exact sound.whole other wrapper at_other
  · intro first second address one two
    rcases refers_setWrapper.mp one with ⟨-, -, _, ⟨⟩, same⟩ | ⟨-, one⟩
    · exact absurd same (inside address)
    rcases refers_setWrapper.mp two with ⟨-, -, _, ⟨⟩, same⟩ | ⟨-, two⟩
    · exact absurd same (inside address)
    exact sound.apart _ _ _ one two
  · intro address i lives
    obtain ⟨other, refers⟩ := sound.pointed address i lives
    exact ⟨other, refers_setWrapper.mpr (.inr ⟨ne_of_vacant vacant refers, refers⟩)⟩

theorem allocate (sound : s.Sound) (vacant : s.wrappers[index]? = some none)
    (free : s.heap address = none) (callable : Nat) :
    ({ s with heap := Function.update s.heap address (some ⟨callable, false⟩) }.setWrapper index
      (some ⟨.pointer address, none⟩)).Sound := by
  have unused : ∀ other, ¬ s.Refers other address := by
    intro other refers
    obtain ⟨i, lives⟩ := sound.found_of_refers refers
    rw [free] at lives
    cases lives
  refine ⟨sound.unbroken, ?_, ?_, ?_⟩
  · intro other wrapper at_other
    rcases getElem?_setWrapper.mp at_other with ⟨-, -, ⟨⟩⟩ | ⟨-, at_other⟩
    · exact ⟨rfl, callable, Function.update_self ..⟩
    · exact (sound.whole other wrapper at_other).update
        (fun same => unused other ⟨wrapper, at_other, same⟩) _
  · intro first second other one two
    rcases refers_setWrapper.mp one with ⟨rfl, -, _, ⟨⟩, ⟨⟩⟩ | ⟨-, one⟩
    · rcases refers_setWrapper.mp two with ⟨rfl, -⟩ | ⟨-, two⟩
      · rfl
      · exact absurd two (unused second)
    · rcases refers_setWrapper.mp two with ⟨-, -, _, ⟨⟩, ⟨⟩⟩ | ⟨-, two⟩
      · exact absurd one (unused first)
      · exact sound.apart _ _ _ one two
  · intro other i lives
    by_cases same : other = address
    · subst other
      exact ⟨index, refers_setWrapper.mpr (.inl ⟨rfl, inside_of_found vacant, _, rfl, rfl⟩)⟩
    · simp only [setWrapper, Function.update_of_ne same] at lives
      obtain ⟨there, refers⟩ := sound.pointed other i lives
      exact ⟨there, refers_setWrapper.mpr (.inr ⟨ne_of_vacant vacant refers, refers⟩)⟩

theorem move (sound : s.Sound) (vacant : s.wrappers[target]? = some none)
    (found : s.wrappers[source]? = some (some other)) :
    ((s.setWrapper target (some other)).setWrapper source (some .empty)).Sound := by
  have distinct : target ≠ source := by
    rintro rfl
    rw [vacant] at found
    cases found
  have refers_iff : ∀ index address,
      ((s.setWrapper target (some other)).setWrapper source (some .empty)).Refers index address ↔
        index = target ∧ other.holder = .pointer address ∨
        index ≠ target ∧ index ≠ source ∧ s.Refers index address := by
    intro index address
    have inside := inside_of_found vacant
    simp only [refers_setWrapper, Option.some.injEq, exists_eq_left']
    constructor
    · rintro (⟨-, -, ⟨⟩⟩ | ⟨away, ⟨rfl, -, refers⟩ | ⟨far, refers⟩⟩)
      · exact .inl ⟨rfl, refers⟩
      · exact .inr ⟨far, away, refers⟩
    · rintro (⟨rfl, refers⟩ | ⟨far, away, refers⟩)
      · exact .inr ⟨distinct, .inl ⟨rfl, inside, refers⟩⟩
      · exact .inr ⟨away, .inr ⟨far, refers⟩⟩
  have source_only : ∀ index address, index ≠ source → s.Refers index address →
      other.holder ≠ .pointer address := fun index address away refers same =>
    away (sound.apart _ _ _ refers ⟨other, found, same⟩)
  refine ⟨sound.unbroken, ?_, ?_, ?_⟩
  · intro index wrapper at_index
    rcases getElem?_setWrapper.mp at_index with ⟨-, -, ⟨⟩⟩ | ⟨-, at_index⟩
    · exact rfl
    rcases getElem?_setWrapper.mp at_index with ⟨-, -, ⟨⟩⟩ | ⟨-, at_index⟩
    · exact sound.whole source other found
    · exact sound.whole index wrapper at_index
  · intro first second address one two
    rcases (refers_iff _ _).mp one with ⟨rfl, same⟩ | ⟨-, away, old⟩
    · rcases (refers_iff _ _).mp two with ⟨rfl, -⟩ | ⟨-, away, older⟩
      · rfl
      · exact absurd same (source_only _ _ away older)
    · rcases (refers_iff _ _).mp two with ⟨rfl, same⟩ | ⟨-, -, older⟩
      · exact absurd same (source_only _ _ away old)
      · exact sound.apart _ _ _ old older
  · intro address i lives
    obtain ⟨index, refers⟩ := sound.pointed address i lives
    by_cases here : index = source
    · subst index
      obtain ⟨wrapper, at_source, same⟩ := refers
      rw [found] at at_source
      cases at_source
      exact ⟨target, (refers_iff _ _).mpr (.inl ⟨rfl, same⟩)⟩
    · exact ⟨index, (refers_iff _ _).mpr (.inr ⟨ne_of_vacant vacant refers, here, refers⟩)⟩

theorem grow (sound : s.Sound) : (s.addWrapper none).Sound := by
  have same : ∀ (index : Nat) wrapper, (s.addWrapper none).wrappers[index]? = some (some wrapper) ↔
      s.wrappers[index]? = some (some wrapper) := by
    intro index wrapper
    unfold addWrapper
    rw [List.getElem?_append]
    split
    · rfl
    · rename_i outside
      simp only [List.getElem?_eq_none (Nat.le_of_not_lt outside)]
      cases index - s.wrappers.length <;> simp
  have refers : ∀ index address, (s.addWrapper none).Refers index address ↔
      s.Refers index address := by
    intro index address
    simp only [Refers, same]
  refine ⟨sound.unbroken, ?_, ?_, ?_⟩
  · intro index wrapper found
    exact sound.whole index wrapper ((same _ _).mp found)
  · simp only [refers]
    exact sound.apart
  · simp only [refers]
    exact sound.pointed

end Sound

end State

end Oomph.UniqueFunction
