import Mathlib.Data.List.Basic

namespace Machine

/-! The innermost frame of a stack comes first.  Code that runs on behalf of a party may
count on a call of that party that is still active further out.
-/

variable {Frame Party : Type*} {needs serves : Frame → Option Party} {frame : Frame}
  {stack above below : List Frame} {party : Party}

def Serves (serves : Frame → Option Party) (stack : List Frame) (party : Party) : Prop :=
  ∃ caller ∈ stack, serves caller = some party

/-- Every frame that needs a party has a frame further out that serves it. -/
def Sheltered (needs serves : Frame → Option Party) : List Frame → Prop
  | [] => True
  | frame :: below =>
    (∀ party, needs frame = some party → Serves serves below party) ∧
      Sheltered needs serves below

theorem Serves.cons (served : Serves serves below party) :
    Serves serves (frame :: below) party := by
  obtain ⟨caller, member, serving⟩ := served
  exact ⟨caller, List.mem_cons_of_mem _ member, serving⟩

theorem Serves.head (serving : serves frame = some party) :
    Serves serves (frame :: below) party :=
  ⟨frame, List.mem_cons_self, serving⟩

theorem serves_cons : Serves serves (frame :: below) party ↔
    serves frame = some party ∨ Serves serves below party := by
  simp [Serves]

theorem Sheltered.outer (sheltered : Sheltered needs serves (above ++ below)) :
    Sheltered needs serves below := by
  induction above with
  | nil => exact sheltered
  | cons frame above ih => exact ih sheltered.2

theorem Sheltered.served (sheltered : Sheltered needs serves (above ++ frame :: below))
    (needed : needs frame = some party) : Serves serves below party :=
  sheltered.outer.1 party needed

theorem Sheltered.push (sheltered : Sheltered needs serves below) (free : needs frame = none) :
    Sheltered needs serves (frame :: below) :=
  ⟨fun party needed => by simp [free] at needed, sheltered⟩

def Tops (stack moved : List Frame) : Prop :=
  ∃ top pushed rest, stack = top ++ rest ∧ moved = pushed ++ rest ∧ top.length ≤ 1

theorem Tops.push (pushed stack : List Frame) : Tops stack (pushed ++ stack) :=
  ⟨[], pushed, stack, rfl, rfl, Nat.zero_le 1⟩

theorem Tops.replace (frame : Frame) (pushed rest : List Frame) :
    Tops (frame :: rest) (pushed ++ rest) :=
  ⟨[frame], pushed, rest, rfl, rfl, Nat.le_refl 1⟩

theorem Tops.keep {moved : List Frame} (tops : Tops (frame :: (above ++ below)) moved) :
    ∃ kept, moved = kept ++ (above ++ below) := by
  obtain ⟨top, pushed, rest, whole, rfl, short⟩ := tops
  cases top with
  | nil => exact ⟨pushed ++ [frame], by rw [← (show frame :: (above ++ below) = rest from whole)]; simp⟩
  | cons first top =>
    have empty : top = [] := List.length_eq_zero_iff.mp (by simpa using short)
    subst empty
    obtain ⟨-, rfl⟩ := List.cons.inj (show frame :: (above ++ below) = first :: rest from whole)
    exact ⟨pushed, rfl⟩

/-- A frame with what lies under it stays until it is the innermost one. -/
theorem Tops.under {moved : List Frame} (tops : Tops (above ++ frame :: below) moved) :
    (∃ kept, moved = kept ++ frame :: below) ∨ above = [] ∧ ∃ pushed, moved = pushed ++ below := by
  cases above with
  | nil =>
    obtain ⟨top, pushed, rest, whole, rfl, short⟩ := tops
    cases top with
    | nil => exact .inl ⟨pushed, by rw [← (show frame :: below = rest from whole)]⟩
    | cons first top =>
      have empty : top = [] := List.length_eq_zero_iff.mp (by simpa using short)
      subst empty
      obtain ⟨-, rfl⟩ := List.cons.inj (show frame :: below = first :: rest from whole)
      exact .inr ⟨rfl, pushed, rfl⟩
  | cons first above =>
    obtain ⟨kept, rfl⟩ := tops.keep
    exact .inl ⟨kept ++ above, by simp⟩

theorem Tops.mem {moved : List Frame} (tops : Tops stack moved) (member : frame ∈ stack) :
    frame ∈ moved ∨ stack.head? = some frame := by
  obtain ⟨top, pushed, rest, rfl, rfl, short⟩ := tops
  cases top with
  | nil => exact .inl (List.mem_append_right _ member)
  | cons first top =>
    have empty : top = [] := List.length_eq_zero_iff.mp (by simpa using short)
    subst empty
    rcases List.mem_cons.mp member with rfl | inside
    · exact .inr rfl
    · exact .inl (List.mem_append_right _ inside)

/-- A stack changes at its innermost frame only, and a new frame is for a party of the frame
that it replaces or for one that may begin. -/
def Enters (party : Frame → Option Party) (begins : Party → Prop) (stack moved : List Frame) : Prop :=
  ∃ top pushed rest, stack = top ++ rest ∧ moved = pushed ++ rest ∧ top.length ≤ 1 ∧
    ∀ frame ∈ pushed, ∀ p, party frame = some p → (∃ old ∈ top, party old = some p) ∨ begins p

namespace Enters

variable {loop : Frame → Option Party} {begins : Party → Prop} {moved rest base : List Frame}
  {old : Frame}

theorem refl (stack : List Frame) : Enters loop begins stack stack :=
  ⟨[], [], stack, rfl, rfl, Nat.zero_le 1, nofun⟩

theorem pop (before : stack = old :: rest) : Enters loop begins stack rest :=
  ⟨[old], [], rest, before, rfl, Nat.le_refl 1, nofun⟩

theorem push (free : loop frame = none) : Enters loop begins stack (frame :: stack) :=
  ⟨[], [frame], stack, rfl, rfl, Nat.zero_le 1, by simp [free]⟩

theorem replace (before : stack = old :: rest) (same : loop frame = loop old) :
    Enters loop begins stack (frame :: rest) :=
  ⟨[old], [frame], rest, before, rfl, Nat.le_refl 1, by simp +contextual [same]⟩

theorem tops (enters : Enters loop begins stack moved) : Tops stack moved := by
  obtain ⟨top, pushed, rest, before, after, short, -⟩ := enters
  exact ⟨top, pushed, rest, before, after, short⟩

theorem avoids (enters : Enters loop begins (frame :: above ++ base) moved) (busy : ¬ begins party)
    (others : ∀ inner ∈ frame :: above, loop inner ≠ some party) :
    ∃ kept, moved = kept ++ base ∧ ∀ inner ∈ kept, loop inner ≠ some party := by
  obtain ⟨top, pushed, rest, before, rfl, short, loops⟩ := enters
  have fresh (absent : ∀ inner ∈ top, loop inner ≠ some party) :
      ∀ inner ∈ pushed, loop inner ≠ some party := by
    intro inner member same
    rcases loops inner member party same with ⟨old, here, looping⟩ | begun
    · exact absent old here looping
    · exact busy begun
  cases top with
  | nil =>
    refine ⟨pushed ++ frame :: above, ?_, ?_⟩
    · rw [List.append_assoc, ← (show frame :: above ++ base = rest from before)]
    · exact List.forall_mem_append.mpr ⟨fresh nofun, others⟩
  | cons first top =>
    have empty : top = [] := List.length_eq_zero_iff.mp (by simpa using short)
    subst empty
    obtain ⟨rfl, below⟩ := List.cons.inj before
    refine ⟨pushed ++ above, ?_, ?_⟩
    · rw [List.append_assoc, ← (show above ++ base = rest from below)]
    · obtain ⟨other, below⟩ := List.forall_mem_cons.mp others
      exact List.forall_mem_append.mpr ⟨fresh (by simpa using other), below⟩

end Enters

/-- A step of one thread changes at most its own stack. -/
inductive Moves (Step : List Frame → List Frame → Prop) (thread : Nat)
    (before : List (List Frame)) : List (List Frame) → Prop
  | same : Moves Step thread before before
  | move (stack moved : List Frame) : before[thread]? = some stack → Step stack moved →
      Moves Step thread before (before.set thread moved)

namespace Moves

variable {Step : List Frame → List Frame → Prop} {thread : Nat} {before after : List (List Frame)}

theorem getElem? (moves : Moves Step thread before after) (other : Nat) :
    after[other]? = before[other]? ∨ other = thread ∧ ∃ stack moved,
      before[thread]? = some stack ∧ after[thread]? = some moved ∧ Step stack moved := by
  cases moves with
  | same => exact .inl rfl
  | move stack moved found stepped =>
    by_cases here : thread = other
    · subst here
      have inside := (List.getElem?_eq_some_iff.mp found).1
      exact .inr ⟨rfl, stack, moved, found, List.getElem?_set_self inside, stepped⟩
    · exact .inl (List.getElem?_set_ne here)

theorem getElem?_of_ne (moves : Moves Step thread before after) {other : Nat}
    (different : thread ≠ other) : after[other]? = before[other]? :=
  (moves.getElem? other).resolve_right fun moved => different moved.1.symm

/-- A frame with what lies under it stays on its stack until its thread, having it innermost,
moves. -/
theorem under (moves : Moves Step thread before after)
    (tops : ∀ stack moved, Step stack moved → Tops stack moved) {other : Nat}
    (found : before[other]? = some (above ++ frame :: below)) :
    (∃ kept, after[other]? = some (kept ++ frame :: below)) ∨
      other = thread ∧ above = [] ∧ ∃ moved, after[thread]? = some moved ∧
        Step (frame :: below) moved := by
  rcases moves.getElem? other with same | ⟨rfl, stack, moved, was, now, stepped⟩
  · exact .inl ⟨above, same.trans found⟩
  · obtain rfl := Option.some.inj (found.symm.trans was)
    cases above with
    | nil => exact .inr ⟨rfl, rfl, moved, now, stepped⟩
    | cons first above =>
      obtain ⟨kept, rfl⟩ := (tops _ _ stepped).keep
      exact .inl ⟨kept ++ above, by rw [now, List.append_assoc]⟩

theorem stays (moves : Moves Step thread before after)
    (tops : ∀ stack moved, Step stack moved → Tops stack moved) {other : Nat}
    (found : before[other]? = some stack) (inside : frame ∈ stack) :
    (∃ later, after[other]? = some later ∧ frame ∈ later) ∨
      other = thread ∧ ∃ rest moved, stack = frame :: rest ∧ after[thread]? = some moved ∧
        Step stack moved := by
  obtain ⟨above, below, rfl⟩ := List.append_of_mem inside
  rcases moves.under tops found with ⟨kept, still⟩ | ⟨rfl, rfl, moved, now, stepped⟩
  · exact .inl ⟨_, still, by simp⟩
  · exact .inr ⟨rfl, below, moved, rfl, now, stepped⟩

theorem forall_mem {Holds : List Frame → Prop} (moves : Moves Step thread before after)
    (keeps : ∀ stack moved, Step stack moved → Holds stack → Holds moved)
    (holds : ∀ stack ∈ before, Holds stack) : ∀ stack ∈ after, Holds stack := by
  cases moves with
  | same => exact holds
  | move stack moved found stepped =>
    intro other member
    rcases List.mem_or_eq_of_mem_set member with old | rfl
    · exact holds other old
    · exact keeps stack other stepped (holds stack (List.mem_of_getElem? found))

end Moves

end Machine
