import Oomph.Machine.References
import Oomph.Machine.Run

namespace Oomph.UnsafeSharedPtr

open Machine

/-! `unsafe_shared_ptr` shares an object whose control block counts the pointers.  Pointers and control
blocks are numbered in the order in which they are made.  A pointer may be a member of an object,
even of the one it refers to.  The destructor of an object destroys its members, each of which may
free another object; otherwise it does nothing with pointers.
-/

structure ControlBlock where
  refCount : Nat
  /-- The object derives from `enable_shared_from_this`; its `_shared_from_this_cb` is this block. -/
  derived : Bool
deriving DecidableEq, Repr

def ControlBlock.decrement (block : ControlBlock) : ControlBlock :=
  { block with refCount := if block.refCount = 0 then 2 ^ 64 - 1 else block.refCount - 1 }

/-- An `operator=` whose `destroy` waits for `free`. -/
structure Assignment where
  this : Nat
  other : Nat
  /-- It is the one that takes a temporary. -/
  moves : Bool
  wanted : Option Nat
  block : Nat
deriving DecidableEq, Repr

structure State where
  pointers : List (Option (Option Nat))
  /-- For each pointer, the block of the object of which it is a member, if it is one. -/
  owners : List (Option Nat)
  blocks : List (Option ControlBlock)
  /-- The control blocks whose `free` is running, newest first. -/
  stack : List Nat
  /-- The assignment that made the oldest of these calls; all others come from `~unsafe_shared_ptr`. -/
  assignment : Option Assignment
  freed : List Nat
  /-- For each assignment that is done, newest first: what the right side referred to when it began,
  and what the left side was given. -/
  assigned : List (Option Nat × Option Nat)
  /-- A pointer or a block was used that does not exist any more; nothing is known of the program
  from then on. -/
  broken : Bool
deriving DecidableEq, Repr

namespace State

def initial : State where
  pointers := []
  owners := []
  blocks := []
  stack := []
  assignment := none
  freed := []
  assigned := []
  broken := false

def value (s : State) (pointer : Nat) : Option (Option Nat) :=
  s.pointers[pointer]?.join

def block (s : State) (index : Nat) : Option ControlBlock :=
  s.blocks[index]?.join

/-- The member that the destructor of an object destroys next: the last one that still lives. -/
def lastMember (s : State) (index : Nat) : Option Nat :=
  (List.range s.pointers.length).reverse.find? fun pointer =>
    s.owners[pointer]? = some (some index) ∧ (s.value pointer).isSome

def breaks (s : State) : State :=
  { s with broken := true }

def setPointer (pointer : Nat) (m : Option Nat) (s : State) : State :=
  { s with pointers := s.pointers.set pointer (some m) }

def endLife (pointer : Nat) (s : State) : State :=
  { s with pointers := s.pointers.set pointer none }

def addPointer (m : Option Nat) (s : State) : State :=
  { s with
    pointers := s.pointers ++ [some m]
    owners := s.owners ++ [none] }

def setBlock (index : Nat) (block : Option ControlBlock) (s : State) : State :=
  { s with blocks := s.blocks.set index block }

def setAssignment (assignment : Option Assignment) (s : State) : State :=
  { s with assignment }

def logAssignment (wanted given : Option Nat) (s : State) : State :=
  { s with assigned := (wanted, given) :: s.assigned }

/-- `if (m) ++m->m_ref_count;`.  So many pointers that the count overflows do not fit in the memory. -/
def increment (m : Option Nat) (s : State) : State :=
  match m with
  | none => s
  | some index =>
    match s.block index with
    | none => s.breaks
    | some block => s.setBlock index (some { block with refCount := block.refCount + 1 })

/-- `destroy` calls `free`, which calls the destructor of the object. -/
def free (index : Nat) (s : State) : State :=
  { s with
    stack := index :: s.stack
    freed := index :: s.freed }

/-- The end of `destroy`, `m = nullptr;`, and the rest of an `operator=`. -/
def finish (this other : Nat) (moves : Bool) (wanted : Option Nat) (s : State) : State :=
  match s.value this, (s.setPointer this none).value other with
  | some _, some m =>
    if moves then
      (((s.setPointer this none).setPointer other none).setPointer this m).logAssignment wanted m
    else (((s.setPointer this none).setPointer this m).increment m).logAssignment wanted m
  | _, _ => s.breaks

def assign (moves : Bool) (this other : Nat) (s : State) : Option State :=
  match s.value this, s.value other with
  | some none, some wanted => some (s.finish this other moves wanted)
  | some (some index), some wanted =>
    some (match s.block index with
      | none => s.breaks
      | some block =>
        let counted := s.setBlock index (some block.decrement)
        if block.decrement.refCount = 0 then
          (counted.free index).setAssignment (some ⟨this, other, moves, wanted, index⟩)
        else counted.finish this other moves wanted)
  | _, _ => none

def destruct (pointer : Nat) (s : State) : State :=
  match s.value pointer with
  | none => s.breaks
  | some none => s.endLife pointer
  | some (some index) =>
    match s.block index with
    | none => s.breaks
    | some block =>
      let ended := (s.setBlock index (some block.decrement)).endLife pointer
      if block.decrement.refCount = 0 then ended.free index else ended

def create (members : Nat) (derived : Bool) (s : State) : State :=
  { s with
    pointers := s.pointers ++ List.replicate members (some none) ++ [some (some s.blocks.length)]
    owners := s.owners ++ List.replicate members (some s.blocks.length) ++ [none]
    blocks := s.blocks ++ [some ⟨1, derived⟩] }

/-- The newest call of `free` returns, and deallocates its block.  When the oldest call returns, the
assignment that made it goes on. -/
def leaveFree (index : Nat) (rest : List Nat) (s : State) : State :=
  let left := { s with stack := rest }.setBlock index none
  match rest, s.assignment with
  | [], some a => (left.setAssignment none).finish a.this a.other a.moves a.wanted
  | _, _ => left

/-- The newest call of `free` destroys the next member of the object, or returns. -/
def advance (index : Nat) (rest : List Nat) (s : State) : State :=
  match s.lastMember index with
  | some member => s.destruct member
  | none => s.leaveFree index rest

end State

inductive Action
  | construct
  /-- `make_shared` or `allocate_shared` of an object with that many members that are pointers; it may
  derive from `enable_shared_from_this`. -/
  | create (members : Nat) (derived : Bool)
  | copyConstruct (other : Nat)
  | moveConstruct (other : Nat)
  | copyAssign (this other : Nat)
  | moveAssign (this other : Nat)
  | sharedFromThis (block : Nat)
  | destroy (pointer : Nat)
  | advance
deriving DecidableEq, Repr

/-- What the user's code does with pointers and objects that exist; it destroys no member by
itself. -/
def State.userCall (s : State) : Action → Option State
  | .construct => some (s.addPointer none)
  | .create members derived => some (s.create members derived)
  | .copyConstruct other => (s.value other).map fun m => (s.addPointer m).increment m
  | .moveConstruct other => (s.value other).map fun m => (s.setPointer other none).addPointer m
  | .copyAssign this other => s.assign false this other
  | .moveAssign this other => s.assign true this other
  | .sharedFromThis index =>
    if (s.block index).any ControlBlock.derived then
      some ((s.addPointer (some index)).increment (some index))
    else none
  | .destroy pointer =>
    if (s.value pointer).isSome ∧ s.owners[pointer]? = some none then some (s.destruct pointer)
    else none
  | .advance => none

def step (s : State) (action : Action) : Option State :=
  if s.broken then none
  else match s.stack with
  | [] => s.userCall action
  | index :: rest => if action = .advance then some (s.advance index rest) else none

/-- The count of a block is the number of the pointers that refer to it; its object was freed once
there is none, and only once.  While `free` runs for an assignment, the left side is not yet
cleared.  Every assignment has given what the right side referred to when it began. -/
structure State.Law (s : State) : Prop where
  unbroken : s.broken = false
  counted : ∀ index block, s.block index = some block → index ∉ s.freed →
    block.refCount = s.pointers.count (some (some index))
  kept : ∀ index < s.blocks.length, index ∉ s.freed →
    (s.block index).isSome = true ∧ some (some index) ∈ s.pointers
  once : s.freed.Nodup
  left : ∀ index ∈ s.freed, ∀ pointer, s.value pointer = some (some index) →
    ∃ a, s.assignment = some a ∧ a.this = pointer ∧ a.block = index
  deallocated : ∀ index ∈ s.freed, s.block index = none ∨ index ∈ s.stack
  assigns : ∀ entry ∈ s.assigned, entry.1 = entry.2

def State.nextMember (s : State) : Option Nat :=
  s.stack.head?.bind s.lastMember

/-- No pointer is assigned to itself unless it is null, and no side of an assignment is a member of
an object that is destroyed by it. -/
def Careful (s : State) : Action → Prop
  | .copyAssign this other => this = other → s.value this = some none
  | .moveAssign this other => this = other → s.value this = some none
  | .advance => ∀ a ∈ s.assignment, s.nextMember ≠ some a.this ∧ s.nextMember ≠ some a.other
  | _ => True

def Internal (_ : State) (action : Action) : Prop :=
  action = .advance

instance (s : State) (action : Action) : Decidable (Careful s action) := by
  unfold Careful
  split <;> infer_instance

variable {s t u : State} {pointer index : Nat} {m : Option Nat} {blk : ControlBlock}

namespace State

theorem value_eq_some : s.value pointer = some m ↔ s.pointers[pointer]? = some (some m) :=
  Option.join_eq_some_iff

theorem block_eq_some : s.block index = some blk ↔ s.blocks[index]? = some (some blk) :=
  Option.join_eq_some_iff

theorem value_set (found : s.value pointer = some m) (new : Option (Option Nat)) (asked : Nat) :
    (s.pointers.set pointer new)[asked]?.join = if asked = pointer then new else s.value asked := by
  have inside := (List.getElem?_eq_some_iff.mp (value_eq_some.mp found)).1
  by_cases same : asked = pointer
  · subst same
    simp [List.getElem?_set_self inside]
  · rw [List.getElem?_set_ne (Ne.symm same), if_neg same]
    rfl

theorem block_setBlock (found : s.block index = some blk) (new : Option ControlBlock) (asked : Nat) :
    (s.setBlock index new).block asked = if asked = index then new else s.block asked := by
  have inside := (List.getElem?_eq_some_iff.mp (block_eq_some.mp found)).1
  by_cases same : asked = index
  · subst same
    simp [block, setBlock, List.getElem?_set_self inside]
  · simp [block, setBlock, List.getElem?_set_ne (Ne.symm same), same]

def references (s : State) : References where
  cells := s.pointers
  made := s.blocks.length
  count index := ((s.block index).map ControlBlock.refCount).getD 0
  leaving := (s.assignment.map Assignment.block).toList
  released := s.freed

theorem references_setBlock (found : s.block index = some blk) (new : Option ControlBlock) :
    (s.setBlock index new).references = { s.references with
      count := Function.update s.references.count index
        ((new.map ControlBlock.refCount).getD 0) } := by
  have counts : (s.setBlock index new).references.count =
      Function.update s.references.count index ((new.map ControlBlock.refCount).getD 0) := by
    funext asked
    simp only [references, block_setBlock found, Function.update_apply]
    split <;> rfl
  rw [← counts]
  simp [references, setBlock]

/-- What does not depend on the counts: the blocks whose `free` runs are those that were freed and
are still allocated. -/
structure Shape (s : State) : Prop where
  unbroken : s.broken = false
  sublist : s.stack.Sublist s.freed
  allocated_iff : ∀ index ∈ s.freed, s.block index ≠ none ↔ index ∈ s.stack
  assigns : ∀ entry ∈ s.assigned, entry.1 = entry.2

/-- The counts are right, and both sides of the assignment that is under way are as they were when
it began. -/
structure Sound (s : State) : Prop extends s.Shape where
  counts : s.references.Sound
  underWay : ∀ a, s.assignment = some a → s.stack ≠ [] ∧ a.this ≠ a.other ∧
    s.value a.this = some (some a.block) ∧ s.value a.other = some a.wanted

namespace Shape

theorem sound (shape : s.Shape) (counts : s.references.Sound) (idle : s.assignment = none) :
    s.Sound :=
  ⟨shape, counts, fun a under => by rw [idle] at under; cases under⟩

theorem setCount (shape : s.Shape) (found : s.block index = some blk) (new : ControlBlock) :
    (s.setBlock index (some new)).Shape :=
  { shape with
    allocated_iff := fun asked gone => by
      have before := shape.allocated_iff asked gone
      rw [block_setBlock found]
      split
      · next same => simpa [same, found, setBlock] using before
      · exact before }

theorem free (shape : s.Shape) (known : s.block index ≠ none) : (s.free index).Shape where
  unbroken := shape.unbroken
  sublist := shape.sublist.cons_cons index
  allocated_iff asked gone := by
    change s.block asked ≠ none ↔ asked ∈ index :: s.stack
    have older := shape.allocated_iff asked
    grind [State.free]
  assigns := shape.assigns

theorem leave {rest : List Nat} (shape : s.Shape) (nodup : s.freed.Nodup)
    (stack : s.stack = index :: rest) (found : s.block index = some blk) :
    ({ s with stack := rest }.setBlock index none).Shape where
  unbroken := shape.unbroken
  sublist := (List.sublist_cons_self index rest).trans (stack ▸ shape.sublist)
  allocated_iff asked gone := by
    have different := (List.nodup_cons.mp (stack ▸ nodup.sublist shape.sublist)).1
    have before := shape.allocated_iff asked gone
    rw [stack, List.mem_cons] at before
    rw [block_setBlock (s := { s with stack := rest }) found]
    change _ ↔ asked ∈ rest
    split
    · next same => simpa [same] using different
    · next other =>
        change s.block asked ≠ none ↔ _
        rw [before]
        simp [other]
  assigns := shape.assigns

theorem logAssignment (shape : s.Shape) (given : Option Nat) : (s.logAssignment given given).Shape :=
  { shape with
    assigns := fun entry logged => by
      rcases List.mem_cons.mp logged with rfl | older
      · rfl
      · exact shape.assigns entry older }

end Shape

theorem setPointer_same (found : s.value pointer = some m) : s.setPointer pointer m = s := by
  obtain ⟨inside, same⟩ := List.getElem?_eq_some_iff.mp (value_eq_some.mp found)
  simp only [setPointer, ← same, List.set_getElem_self]

theorem exists_block (live : 0 < s.references.count index) :
    ∃ blk, s.block index = some blk ∧ s.references.count index = blk.refCount := by
  cases found : s.block index with
  | none => simp [references, found] at live
  | some blk => exact ⟨blk, rfl, by simp [references, found]⟩

theorem count_pos (counts : s.references.Sound) (idle : s.assignment = none)
    (refers : s.value pointer = some (some index)) : 0 < s.references.count index := by
  by_contra zero
  have leaves := counts.leaving_of_count_eq_zero (value_eq_some.mp refers) (by omega)
  simp [references, idle] at leaves

theorem Sound.copy (sound : s.Sound) (idle : s.assignment = none) (empty : s.value pointer = some none)
    (live : ∀ index, m = some index → 0 < s.references.count index) :
    ((s.setPointer pointer m).increment m).Sound := by
  cases m with
  | none =>
    rw [setPointer_same empty]
    exact sound
  | some index =>
    obtain ⟨blk, found, count⟩ := exists_block (live index rfl)
    have here : (s.setPointer pointer (some index)).block index = some blk := found
    have shape : (s.setPointer pointer (some index)).Shape := { sound.toShape with }
    simp only [increment, here]
    refine (shape.setCount here _).sound ?_ idle
    rw [references_setBlock here]
    have refers := sound.counts.refer (value_eq_some.mp empty) (live index rfl)
    rwa [count] at refers

theorem Sound.move {source : Nat} (sound : s.Sound) (idle : s.assignment = none)
    (found : s.value source = some m) (empty : s.value pointer = some none) :
    ((s.setPointer source none).setPointer pointer m).Sound :=
  Shape.sound { sound.toShape with }
    (sound.counts.move (value_eq_some.mp found) (value_eq_some.mp empty)) idle

theorem Sound.finish {this other : Nat} {moves : Bool} {old wanted : Option Nat}
    (sound : (s.setPointer this none).Sound) (idle : s.assignment = none)
    (here : s.value this = some old) (there : (s.setPointer this none).value other = some wanted) :
    (s.finish this other moves wanted).Sound := by
  have empty : (s.setPointer this none).value this = some none := by
    rw [State.value, setPointer, value_set here, if_pos rfl]
  have logged {t : State} (done : t.Sound) (idle : t.assignment = none) :
      (t.logAssignment wanted wanted).Sound :=
    (done.toShape.logAssignment wanted).sound done.counts idle
  simp only [State.finish, here, there]
  split
  · exact logged (sound.move idle there empty) idle
  · refine logged (sound.copy idle empty fun index same => ?_) ?_
    · exact count_pos sound.counts idle (same ▸ there)
    · cases wanted <;> grind [increment, setPointer, setBlock, breaks]

namespace Sound

theorem idle (sound : s.Sound) (stack : s.stack = []) : s.assignment = none := by
  cases under : s.assignment with
  | none => rfl
  | some a => exact absurd stack (sound.underWay a under).1

theorem construct (sound : s.Sound) (stack : s.stack = []) :
    (s.addPointer none).Sound ∧ (s.addPointer none).value s.pointers.length = some none :=
  ⟨Shape.sound { sound.toShape with } (sound.counts.addCells 1) (sound.idle stack),
    by simp [State.value, State.addPointer]⟩

theorem copyConstruct (sound : s.Sound) (stack : s.stack = [])
    (live : ∀ index, m = some index → 0 < s.references.count index) :
    ((s.addPointer m).increment m).Sound := by
  obtain ⟨added, empty⟩ := sound.construct stack
  have made := added.copy (sound.idle stack) empty live
  simpa [State.addPointer, setPointer] using made

theorem moveConstruct {other : Nat} (sound : s.Sound) (stack : s.stack = [])
    (found : s.value other = some m) : ((s.setPointer other none).addPointer m).Sound := by
  obtain ⟨added, empty⟩ := sound.construct stack
  have inside := (List.getElem?_eq_some_iff.mp (value_eq_some.mp found)).1
  have still : (s.addPointer none).value other = some m := by
    rw [State.value, State.addPointer, List.getElem?_append_left inside]
    exact found
  have made := added.move (sound.idle stack) still empty
  simpa [State.addPointer, setPointer, List.set_append_left _ _ inside] using made

theorem create (sound : s.Sound) (stack : s.stack = []) (members : Nat) (derived : Bool) :
    (s.create members derived).Sound := by
  have block (asked : Nat) : (s.create members derived).block asked =
      if asked = s.blocks.length then some ⟨1, derived⟩ else s.block asked := by
    grind [State.block, State.create]
  refine Shape.sound { sound.toShape with allocated_iff := fun index gone => ?_ } ?_ (sound.idle stack)
  · have older : index ≠ s.blocks.length := (sound.counts.valid index gone).ne
    rw [block, if_neg older]
    exact sound.allocated_iff index gone
  · have made := (sound.counts.addCells members).make
    have counts : (s.create members derived).references.count =
        Function.update s.references.count s.blocks.length 1 := by
      funext index
      simp only [references, block, Function.update_apply]
      split <;> rfl
    have same : (s.create members derived).references = { s.references with
        cells := s.pointers ++ List.replicate members (some none) ++ [some (some s.blocks.length)]
        made := s.blocks.length + 1
        count := Function.update s.references.count s.blocks.length 1 } := by
      rw [← counts]
      simp [references, State.create]
    rw [same]
    exact made

end Sound

end State

namespace State

theorem exists_decrement (shape : s.Shape) (live : 0 < s.references.count index) :
    ∃ blk, s.block index = some blk ∧ blk.decrement.refCount = s.references.count index - 1 ∧
      (s.setBlock index (some blk.decrement)).Shape ∧
      (s.setBlock index (some blk.decrement)).block index ≠ none ∧
      (s.setBlock index (some blk.decrement)).references = { s.references with
        count := Function.update s.references.count index (s.references.count index - 1) } := by
  obtain ⟨blk, found, count⟩ := exists_block live
  have less : blk.decrement.refCount = s.references.count index - 1 := by
    rw [count] at live ⊢
    simp [ControlBlock.decrement, Nat.ne_of_gt live]
  refine ⟨blk, found, less, shape.setCount found _, ?_, ?_⟩
  · rw [block_setBlock found, if_pos rfl]
    nofun
  · rw [references_setBlock found, Option.map_some, Option.getD_some, less]

/-- A pointer that refers to a block that is not counted any more is the left side of the assignment
under way. -/
theorem Sound.left (sound : s.Sound) (refers : s.value pointer = some (some index))
    (zero : s.references.count index = 0) :
    ∃ a, s.assignment = some a ∧ a.this = pointer ∧ a.block = index := by
  have cell := value_eq_some.mp refers
  have leaves := sound.counts.leaving_of_count_eq_zero cell zero
  obtain ⟨a, under, rfl⟩ : ∃ a, s.assignment = some a ∧ a.block = index := by
    simpa [references] using leaves
  have this := value_eq_some.mp (sound.underWay a under).2.2.1
  exact ⟨a, under, sound.counts.cell_eq_of_leaving leaves this cell, rfl⟩

theorem Sound.destruct (sound : s.Sound) (found : s.value pointer = some m)
    (apart : ∀ a, s.assignment = some a → a.this ≠ pointer ∧ a.other ≠ pointer) :
    (s.destruct pointer).Sound := by
  have cell := value_eq_some.mp found
  have ended {t : State} (shape : t.Shape) (counts : t.references.Sound)
      (assignment : t.assignment = s.assignment)
      (pointers : t.pointers = s.pointers.set pointer none)
      (stack : s.stack ≠ [] → t.stack ≠ []) : t.Sound := by
    refine ⟨shape, counts, fun a under => ?_⟩
    rw [assignment] at under
    obtain ⟨running, different, this, other⟩ := sound.underWay a under
    simp only [State.value, pointers]
    rw [value_set found, value_set found, if_neg (apart a under).1, if_neg (apart a under).2]
    exact ⟨stack running, different, this, other⟩
  simp only [State.destruct, found]
  cases m with
  | none => exact ended { sound.toShape with } (sound.counts.close cell) rfl rfl id
  | some index =>
    have live : 0 < s.references.count index := by
      by_contra zero
      obtain ⟨a, under, this, -⟩ := sound.left found (by omega)
      exact (apart a under).1 this
    obtain ⟨blk, here, less, shape, known, counted⟩ := exists_decrement sound.toShape live
    simp only [here]
    split
    · next last =>
        have ends : ((s.setBlock index (some blk.decrement)).endLife pointer).Shape :=
          { shape with }
        have closed := sound.counts.closeLast cell (by omega)
        refine ended (ends.free known) ?_ rfl rfl fun _ => List.cons_ne_nil _ _
        change References.Sound { (s.setBlock index (some blk.decrement)).references with
          cells := s.pointers.set pointer none, released := index :: s.freed }
        rw [counted, ← less, last]
        exact closed
    · refine ended { shape with } ?_ rfl rfl id
      change References.Sound { (s.setBlock index (some blk.decrement)).references with
        cells := s.pointers.set pointer none }
      rw [counted]
      exact sound.counts.closeShared cell (by omega)

theorem Sound.assign {moves : Bool} {this other : Nat} (sound : s.Sound) (stack : s.stack = [])
    (distinct : this = other → s.value this = some none)
    (assigned : s.assign moves this other = some t) : t.Sound := by
  have idle := sound.idle stack
  unfold State.assign at assigned
  split at assigned
  · next wanted here there =>
      cases assigned
      have same := setPointer_same here
      exact Sound.finish (same.symm ▸ sound) idle here (same.symm ▸ there)
  · next index wanted here there =>
      cases assigned
      have different : this ≠ other := fun same => by simp [here] at distinct; exact distinct same
      have live := count_pos sound.counts idle here
      obtain ⟨blk, found, less, shape, known, counted⟩ := exists_decrement sound.toShape live
      simp only [found]
      split
      · next last =>
          refine ⟨{ shape.free known with }, ?_, fun a under => ?_⟩
          · change References.Sound { (s.setBlock index (some blk.decrement)).references with
              leaving := [index], released := index :: s.freed }
            have one : s.references.count index = 1 := by omega
            have released := sound.counts.release one
            rw [counted, ← less, last]
            simpa [references, idle] using released
          · cases under
            exact ⟨List.cons_ne_nil _ _, different, here, there⟩
      · refine Sound.finish (Shape.sound { shape with } ?_ idle) idle here ?_
        · change References.Sound { (s.setBlock index (some blk.decrement)).references with
            cells := s.pointers.set this (some none) }
          rw [counted]
          exact sound.counts.drop (value_eq_some.mp here) (by omega)
        · change (s.pointers.set this (some none))[other]?.join = _
          rw [value_set here, if_neg different.symm, there]
  · cases assigned

theorem Sound.leaveFree {rest : List Nat} (sound : s.Sound) (stack : s.stack = index :: rest) :
    (s.leaveFree index rest).Sound := by
  have gone : index ∈ s.freed := sound.sublist.subset (stack ▸ List.mem_cons_self)
  have zero := (sound.counts.released_iff index (sound.counts.valid index gone)).mp gone
  obtain ⟨blk, found⟩ := Option.ne_none_iff_exists'.mp
    ((sound.allocated_iff index gone).mpr (stack ▸ List.mem_cons_self))
  have shape := sound.toShape.leave sound.counts.nodup stack found
  have counts : ({ s with stack := rest }.setBlock index none).references = s.references := by
    rw [references_setBlock (s := { s with stack := rest }) found]
    change { s.references with count := Function.update s.references.count index 0 } = _
    rw [← zero, Function.update_eq_self]
  unfold State.leaveFree
  dsimp only
  split
  · next a under =>
      obtain ⟨-, different, this, other⟩ := sound.underWay a under
      have last : s.references.leaving = [a.block] := by simp [references, under]
      have leaves := sound.counts.leave (value_eq_some.mp this) last
      refine Sound.finish (Shape.sound { shape with } ?_ rfl) rfl this ?_
      · change References.Sound { ({ s with stack := [] }.setBlock index none).references with
          cells := s.pointers.set a.this (some none), leaving := [] }
        rw [counts]
        exact leaves
      · change (s.pointers.set a.this (some none))[a.other]?.join = _
        rw [value_set this, if_neg different.symm, other]
  · next waits =>
      refine ⟨shape, counts.symm ▸ sound.counts, fun a under => ⟨fun empty => ?_, ?_⟩⟩
      · exact waits a empty under
      · exact (sound.underWay a under).2

theorem step_of_running {action : Action} {rest : List Nat} (stack : s.stack = index :: rest)
    (taken : step s action = some t) : action = .advance ∧ t = s.advance index rest := by
  grind [UnsafeSharedPtr.step]

theorem value_of_lastMember {member : Nat} (last : s.lastMember index = some member) :
    ∃ m, s.value member = some m := by
  have holds := List.find?_some last
  exact Option.isSome_iff_exists.mp (of_decide_eq_true holds).2

theorem Sound.initial : State.initial.Sound where
  unbroken := rfl
  sublist := .slnil
  allocated_iff := nofun
  assigns := nofun
  counts := ⟨fun _ => rfl, nofun, nofun, fun _ _ => rfl, .nil, .slnil⟩
  underWay := nofun

theorem Sound.userCall {action : Action} (sound : s.Sound) (stack : s.stack = [])
    (careful : Careful s action) (called : s.userCall action = some t) : t.Sound := by
  cases action with
  | construct => cases called; exact (sound.construct stack).1
  | create members derived => cases called; exact sound.create stack members derived
  | copyConstruct other =>
    obtain ⟨m, found, rfl⟩ := Option.map_eq_some_iff.mp called
    exact sound.copyConstruct stack fun index same =>
      count_pos sound.counts (sound.idle stack) (same ▸ found)
  | moveConstruct other =>
    obtain ⟨m, found, rfl⟩ := Option.map_eq_some_iff.mp called
    exact sound.moveConstruct stack found
  | copyAssign this other => exact sound.assign stack careful called
  | moveAssign this other => exact sound.assign stack careful called
  | sharedFromThis index =>
    simp only [State.userCall, Option.any_eq_true, Option.ite_none_right_eq_some] at called
    obtain ⟨⟨blk, found, -⟩, called⟩ := called
    cases called
    -- The block is allocated while no `free` runs, so it was not freed.
    have kept : index ∉ s.freed := fun gone => by
      have running := (sound.allocated_iff index gone).mp (by simp [found])
      simp [stack] at running
    refine sound.copyConstruct stack fun other same => ?_
    cases same
    have inside := (List.getElem?_eq_some_iff.mp (block_eq_some.mp found)).1
    exact Nat.pos_of_ne_zero ((sound.counts.released_iff index inside).not.mp kept)
  | destroy pointer =>
    simp only [State.userCall, Option.ite_none_right_eq_some] at called
    obtain ⟨⟨lives, -⟩, called⟩ := called
    cases called
    obtain ⟨m, found⟩ := Option.isSome_iff_exists.mp lives
    refine sound.destruct found fun a under => ?_
    rw [sound.idle stack] at under
    cases under
  | advance => cases called

theorem Sound.step {action : Action} (sound : s.Sound) (careful : Careful s action)
    (taken : step s action = some t) : t.Sound := by
  cases stack : s.stack with
  | nil =>
    have called : s.userCall action = some t := by
      simpa [UnsafeSharedPtr.step, sound.unbroken, stack] using taken
    exact sound.userCall stack careful called
  | cons index rest =>
    obtain ⟨rfl, rfl⟩ := step_of_running stack taken
    unfold State.advance
    split
    · next member last =>
        have next : s.nextMember = some member := by simp [nextMember, stack, last]
        obtain ⟨m, found⟩ := value_of_lastMember last
        refine sound.destruct found fun a under => ?_
        have apart := careful a under
        simp only [next, ne_eq, Option.some.injEq] at apart
        exact ⟨fun same => apart.1 same.symm, fun same => apart.2 same.symm⟩
    · exact sound.leaveFree stack

theorem Sound.law (sound : s.Sound) : s.Law where
  unbroken := sound.unbroken
  counted index blk found kept := by
    have balance := sound.counts.balance index
    rw [List.count_eq_zero_of_not_mem fun leaves => kept (sound.counts.mem_leaving leaves)] at balance
    simpa [references, found, References.referring] using balance.symm
  kept index inside kept := by
    have live := Nat.pos_of_ne_zero ((sound.counts.released_iff index inside).not.mp kept)
    obtain ⟨blk, found, -⟩ := exists_block live
    refine ⟨by rw [found]; rfl, List.count_pos_iff.mp ?_⟩
    have balance := sound.counts.balance index
    simp only [References.referring, references] at balance live ⊢
    omega
  once := sound.counts.nodup
  left index gone pointer refers :=
    sound.left refers ((sound.counts.released_iff index (sound.counts.valid index gone)).mp gone)
  deallocated index gone := by
    have allocated := sound.allocated_iff index gone
    tauto
  assigns := sound.assigns

end State

namespace State

/-- The law is broken, or will be when the assignment under way ends. -/
def Doomed (s : State) : Prop :=
  s.broken = true ∨ (∃ entry ∈ s.assigned, entry.1 ≠ entry.2) ∨
    s.stack ≠ [] ∧ ∃ a, s.assignment = some a ∧
      (s.value a.this = none ∨ s.value a.other = none ∨ a.this = a.other ∧ a.wanted ≠ none)

theorem Doomed.not_law (doomed : s.Doomed) (stack : s.stack = []) : ¬ s.Law := by
  intro law
  rcases doomed with broken | ⟨entry, logged, wrong⟩ | ⟨running, -⟩
  · rw [law.unbroken] at broken
    cases broken
  · exact wrong (law.assigns entry logged)
  · exact running stack

attribute [grind] setPointer endLife addPointer setBlock setAssignment logAssignment increment free
  create breaks

@[grind =] theorem increment_assigned (m : Option Nat) (s : State) :
    (s.increment m).assigned = s.assigned := by
  cases m <;> grind

@[grind =] theorem increment_stack (m : Option Nat) (s : State) :
    (s.increment m).stack = s.stack := by
  cases m <;> grind

@[grind =] theorem finish_stack (this other : Nat) (moves : Bool) (wanted : Option Nat) (s : State) :
    (s.finish this other moves wanted).stack = s.stack := by
  grind [finish]

theorem finish_assigned (this other : Nat) (moves : Bool) (wanted : Option Nat) {s : State}
    {entry : Option Nat × Option Nat} (logged : entry ∈ s.assigned) :
    entry ∈ (s.finish this other moves wanted).assigned := by
  grind [finish]

theorem assigned_step {action : Action} {entry : Option Nat × Option Nat}
    (logged : entry ∈ s.assigned) (taken : step s action = some t) : entry ∈ t.assigned := by
  have assigned (moves : Bool) (this other : Nat) (t : State)
      (done : s.assign moves this other = some t) : entry ∈ t.assigned := by
    grind [assign, finish_assigned]
  have destructed (pointer : Nat) (s : State) : (s.destruct pointer).assigned = s.assigned := by
    grind [destruct]
  have left (index : Nat) (rest : List Nat) : entry ∈ (s.leaveFree index rest).assigned := by
    unfold leaveFree
    dsimp only
    split
    · exact finish_assigned _ _ _ _ logged
    · exact logged
  cases action <;> grind [UnsafeSharedPtr.step, userCall, advance, Option.map_eq_some_iff]

/-- A destructor breaks the program, or ends the life of the pointer; it frees at most one object. -/
theorem destruct_cases (pointer : Nat) (s : State) :
    (s.destruct pointer).assignment = s.assignment ∧
      s.stack.length ≤ (s.destruct pointer).stack.length ∧
      (s.destruct pointer).stack.length ≤ s.stack.length + 1 ∧
      (s.destruct pointer = s.breaks ∨
        (s.destruct pointer).pointers = s.pointers.set pointer none) := by
  grind [destruct]

/-- An assignment ends of which a side does not live, or whose sides are the same pointer. -/
theorem doomed_finish {this other : Nat} {moves : Bool} {wanted : Option Nat}
    (bad : s.value this = none ∨ s.value other = none ∨ this = other ∧ wanted ≠ none) :
    (s.finish this other moves wanted).Doomed := by
  unfold finish
  split
  · next old m here there =>
      rw [State.value, setPointer, value_set here] at there
      have wrong : wanted ≠ m := by grind
      split
      · exact .inr (.inl ⟨_, List.mem_cons_self, wrong⟩)
      · exact .inr (.inl ⟨_, List.mem_cons_self, wrong⟩)
  · exact .inl rfl

theorem doomed_destruct {member : Nat} {a : Assignment} (under : s.assignment = some a)
    (running : s.stack ≠ [])
    (bad : s.value a.this = none ∨ s.value a.other = none ∨ a.this = a.other ∧ a.wanted ≠ none ∨
      member = a.this ∨ member = a.other) : (s.destruct member).Doomed := by
  obtain ⟨assignment, longer, -, breaks | pointers⟩ := destruct_cases member s
  · exact .inl (by rw [breaks]; rfl)
  · have gone (pointer : Nat) (dead : s.value pointer = none ∨ member = pointer) :
        (s.destruct member).value pointer = none := by
      rw [value, pointers, List.getElem?_set]
      split
      · split <;> rfl
      · next other => exact dead.resolve_right other
    have still : (s.destruct member).stack ≠ [] := by
      have before := List.length_pos_iff.mpr running
      exact List.length_pos_iff.mp (by omega)
    refine .inr (.inr ⟨still, a, assignment.trans under, ?_⟩)
    rcases bad with this | other | self | this | other
    · exact .inl (gone _ (.inl this))
    · exact .inr (.inl (gone _ (.inl other)))
    · exact .inr (.inr self)
    · exact .inl (gone _ (.inr this))
    · exact .inr (.inl (gone _ (.inr other)))

theorem Doomed.step {action : Action} (doomed : s.Doomed) (taken : step s action = some t) :
    t.Doomed := by
  rcases doomed with broken | ⟨entry, logged, wrong⟩ | ⟨running, a, under, bad⟩
  · simp [UnsafeSharedPtr.step, broken] at taken
  · exact .inr (.inl ⟨entry, assigned_step logged taken, wrong⟩)
  · obtain ⟨index, rest, stack⟩ := List.exists_cons_of_ne_nil running
    obtain ⟨-, rfl⟩ := step_of_running stack taken
    unfold State.advance
    split
    · exact doomed_destruct under running (by tauto)
    · unfold State.leaveFree
      dsimp only
      split
      · next last =>
          cases last.symm.trans under
          exact doomed_finish bad
      · next waits => exact .inr (.inr ⟨fun empty => waits a empty under, a, under, bad⟩)

theorem doomed_assign {moves : Bool} {this other : Nat}
    (careless : ¬ (this = other → s.value this = some none))
    (done : s.assign moves this other = some t) : t.Doomed := by
  obtain ⟨rfl, value⟩ := Classical.not_imp.mp careless
  unfold assign at done
  split at done
  · contradiction
  · next index wanted here there =>
      cases done
      cases here.symm.trans there
      split
      · exact .inl rfl
      · dsimp only
        split
        · exact .inr (.inr ⟨List.cons_ne_nil _ _, _, rfl, .inr (.inr ⟨rfl, nofun⟩)⟩)
        · exact doomed_finish (.inr (.inr ⟨rfl, nofun⟩))
  · cases done

theorem doomed_of_careless {action : Action} (careless : ¬ Careful s action)
    (taken : step s action = some t) : t.Doomed := by
  have called (user : action ≠ .advance) : s.userCall action = some t := by
    grind [UnsafeSharedPtr.step]
  cases action with
  | copyAssign this other => exact doomed_assign careless (called nofun)
  | moveAssign this other => exact doomed_assign careless (called nofun)
  | advance =>
    simp only [Careful, not_forall] at careless
    obtain ⟨a, under, careless⟩ := careless
    obtain ⟨member, next, side⟩ : ∃ member, s.nextMember = some member ∧
        (member = a.this ∨ member = a.other) := by grind
    obtain ⟨index, top, last⟩ := Option.bind_eq_some_iff.mp next
    obtain ⟨rest, stack⟩ := List.head?_eq_some_iff.mp top
    obtain ⟨-, rfl⟩ := step_of_running stack taken
    simp only [State.advance, last]
    exact doomed_destruct under (by simp [stack]) (by tauto)
  | _ => exact absurd trivial careless

def live (s : State) : Nat :=
  s.pointers.countP Option.isSome

theorem live_setPointer (found : s.value pointer = some m) (new : Option Nat) :
    (s.setPointer pointer new).live = s.live := by
  simpa [live, setPointer] using countP_set_add Option.isSome (value_eq_some.mp found) (some new)

theorem live_finish (this other : Nat) (moves : Bool) (wanted : Option Nat) (s : State) :
    (s.finish this other moves wanted).live = s.live := by
  unfold finish
  split
  · next old m here there =>
      have empty : (s.setPointer this none).value this = some none := by
        rw [value, setPointer, value_set here, if_pos rfl]
      have still : ((s.setPointer this none).setPointer other none).value this = some none := by
        rw [value, setPointer, value_set there, empty, ite_self]
      split
      · exact (live_setPointer still m).trans
          ((live_setPointer there none).trans (live_setPointer here none))
      · have same : (((s.setPointer this none).setPointer this m).increment m).live =
            ((s.setPointer this none).setPointer this m).live := by
          cases m <;> grind [live]
        exact same.trans ((live_setPointer empty m).trans (live_setPointer here none))
  · rfl

/-- Each step of `free` ends the life of a pointer, which may call `free` once more, or ends a
call. -/
def remaining (s : State) : Nat :=
  2 * s.live + s.stack.length + if s.broken then 0 else 1

theorem remaining_advance {rest : List Nat} (stack : s.stack = index :: rest)
    (unbroken : s.broken = false) : (s.advance index rest).remaining < s.remaining := by
  unfold advance
  split
  · next member last =>
      obtain ⟨m, found⟩ := value_of_lastMember last
      have fewer : (s.pointers.set member none).countP Option.isSome + 1 = s.live := by
        simpa [live] using countP_set_add Option.isSome (value_eq_some.mp found) none
      obtain ⟨-, -, calls, breaks | pointers⟩ := destruct_cases member s
      · simp [breaks, remaining, live, State.breaks, unbroken]
      · simp only [remaining, unbroken, Bool.false_eq_true, if_false]
        rw [live, pointers]
        split <;> omega
  · have left : (s.leaveFree index rest).live = s.live ∧ (s.leaveFree index rest).stack = rest := by
      unfold leaveFree
      dsimp only
      split
      · exact ⟨live_finish _ _ _ _ _, by grind⟩
      · exact ⟨rfl, rfl⟩
    simp only [remaining, left, stack, unbroken, List.length_cons, Bool.false_eq_true, if_false]
    split <;> omega

end State

/-- The counts are right, every object is freed once, when its last pointer goes away, and every
assignment has given what it should, exactly in the runs that are careful; all calls end. -/
theorem shared_iff_careful {s : State} (reached : Leads step .initial s) :
    (Reaches step Careful .initial s → s.Law) ∧
      (s.stack = [] → (s.Law ↔ Reaches step Careful .initial s)) ∧
      ∃ t, Reaches step Internal s t ∧ (t.stack = [] ∨ t.broken = true) := by
  have lawful (careful : Reaches step Careful .initial s) : s.Law :=
    (careful.invariant State.Sound .initial fun _ _ _ sound permitted taken =>
      sound.step permitted taken).law
  refine ⟨lawful, fun stack => ⟨fun law => ?_, lawful⟩, ?_⟩
  · rcases reached.all_or_exists Careful with all | ⟨before, action, next, -, -, careless, taken, later⟩
    · exact all.mono fun _ _ => And.right
    · have doomed : s.Doomed := later.invariant State.Doomed
        (State.doomed_of_careless careless taken) fun _ _ _ doomed _ taken => doomed.step taken
      exact absurd law (doomed.not_law stack)
  · refine exists_final State.remaining (fun _ _ _ _ _ _ => trivial) ?_ ?_ trivial
    · rintro before action after - rfl taken
      have unbroken : before.broken = false := by grind [step]
      cases stack : before.stack with
      | nil => simp [step, unbroken, stack, State.userCall] at taken
      | cons index rest =>
        obtain ⟨-, rfl⟩ := State.step_of_running stack taken
        exact State.remaining_advance stack unbroken
    · intro before _ ongoing
      rw [not_or] at ongoing
      obtain ⟨index, rest, stack⟩ := List.exists_cons_of_ne_nil ongoing.1
      exact ⟨.advance, before.advance index rest, rfl, by simp [step, stack, ongoing.2]⟩

/-- An object that refers to itself is freed when its own pointer was moved out and destroyed. -/
theorem self_reference_freed : ∃ s, Leads step .initial s ∧ s.Law ∧ s.freed = [0] := by
  obtain ⟨s, reached, freed⟩ := exists_of_run step Careful .initial
    [.create 1 true, .sharedFromThis 0, .moveAssign 0 2, .destroy 2, .moveConstruct 0, .destroy 1,
      .destroy 3, .advance, .advance] (fun s => s.freed = [0]) (by decide +kernel)
  have leads : Leads step .initial s := reached.mono fun _ _ _ => trivial
  exact ⟨s, leads, (shared_iff_careful leads).1 reached, freed⟩

/-- A pointer that is assigned to itself becomes null, and in `head = head->next` the right side is
destroyed before it is read. -/
theorem assignments_destroy_too_early :
    (∃ s, Leads step .initial s ∧ s.stack = [] ∧ s.value 0 = some none ∧
      s.assigned = [(some 0, none)] ∧ ¬ s.Law) ∧
      ∃ s, Leads step .initial s ∧ s.stack = [] ∧ s.broken = true ∧ ¬ s.Law := by
  constructor
  · obtain ⟨s, reached, stack, value, assigned⟩ := exists_of_run step (fun _ _ => True)
      .initial [.create 0 false, .copyConstruct 0, .copyAssign 0 0]
      (fun s => s.stack = [] ∧ s.value 0 = some none ∧ s.assigned = [(some 0, none)])
      (by decide +kernel)
    refine ⟨s, reached, stack, value, assigned, fun law => ?_⟩
    exact absurd (law.assigns (some 0, none) (by simp [assigned])) (by simp)
  · obtain ⟨s, reached, stack, broken⟩ := exists_of_run step (fun _ _ => True) .initial
      [.create 1 false, .create 1 false, .moveAssign 0 3, .copyAssign 1 0, .advance, .advance,
        .advance, .advance] (fun s => s.stack = [] ∧ s.broken = true) (by decide +kernel)
    refine ⟨s, reached, stack, broken, fun law => ?_⟩
    rw [law.unbroken] at broken
    cases broken

end Oomph.UnsafeSharedPtr
