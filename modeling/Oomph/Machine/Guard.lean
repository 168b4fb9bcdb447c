import Mathlib.Data.List.Basic

namespace Machine

/-! Threads have stacks of frames, and some frames run while their thread holds the lock.  The
discipline says that the holder of the lock is the thread with such a frame, and that it
has one only.  Who holds the lock can then be read off the stacks, so a call that leaves the
stack as it found it leaves the lock as it found it.
-/

variable {Frame : Type*}

def Holding (holds : Frame → Bool) (holder : Option Nat) (threads : List (List Frame)) : Prop :=
  ∀ thread stack, threads[thread]? = some stack →
    stack.countP holds = if holder = some thread then 1 else 0

namespace Holding

variable {holds : Frame → Bool} {holder other : Option Nat} {threads later : List (List Frame)}
  {thread : Nat} {stack moved : List Frame}

theorem held_iff (holding : Holding holds holder threads) (found : threads[thread]? = some stack) :
    holder = some thread ↔ stack.countP holds = 1 := by
  rw [holding thread stack found]
  split
  · exact iff_of_true ‹_› rfl
  · exact iff_of_false ‹_› (by decide)

/-- A thread with the same stack has the lock before just when it has it after. -/
theorem restored (before : Holding holds holder threads) (after : Holding holds other later)
    (found : threads[thread]? = some stack) (same : later[thread]? = some stack) :
    holder = some thread ↔ other = some thread := by
  rw [before.held_iff found, after.held_iff same]

theorem own (holding : Holding holds holder threads) (found : threads[thread]? = some stack)
    (less : moved.countP holds + 1 = stack.countP holds) : holder = some thread := by
  have count := holding _ _ found
  by_contra free
  rw [if_neg free] at count
  omega

private theorem set_cases {index : Nat} {party : List Frame}
    (here : (threads.set thread moved)[index]? = some party) :
    index = thread ∧ party = moved ∨ index ≠ thread ∧ threads[index]? = some party := by
  rw [List.getElem?_set] at here
  split at here
  · rename_i equal
    split at here
    · cases here
      exact .inl ⟨equal.symm, rfl⟩
    · cases here
  · rename_i different
    exact .inr ⟨Ne.symm different, here⟩

theorem move (holding : Holding holds holder threads) (found : threads[thread]? = some stack)
    (same : moved.countP holds = stack.countP holds) :
    Holding holds holder (threads.set thread moved) := by
  intro index party here
  rcases set_cases here with ⟨rfl, rfl⟩ | ⟨_, here⟩
  · rw [same]
    exact holding _ _ found
  · exact holding index party here

theorem take (holding : Holding holds none threads) (found : threads[thread]? = some stack)
    (more : moved.countP holds = stack.countP holds + 1) :
    Holding holds (some thread) (threads.set thread moved) := by
  intro index party here
  rcases set_cases here with ⟨rfl, rfl⟩ | ⟨different, here⟩
  · rw [more, holding _ _ found, if_pos rfl, if_neg nofun]
  · have others : some thread ≠ some index := fun same => different (Option.some.inj same).symm
    rw [holding index party here, if_neg nofun, if_neg others]

theorem give (holding : Holding holds holder threads) (found : threads[thread]? = some stack)
    (less : moved.countP holds + 1 = stack.countP holds) :
    Holding holds none (threads.set thread moved) := by
  have own := holding.own found less
  have count := holding _ _ found
  rw [if_pos own] at count
  intro index party here
  rw [if_neg nofun]
  rcases set_cases here with ⟨rfl, rfl⟩ | ⟨different, here⟩
  · omega
  · have others : some thread ≠ some index := fun same => different (Option.some.inj same).symm
    rw [holding index party here, own, if_neg others]

/-- An exception that leaves a frame of locked code leaves the thread with the lock and with no
frame that says so. -/
theorem kept_of_leaves {left rest : List Frame} (holding : Holding holds holder threads)
    (found : threads[thread]? = some (left ++ rest)) (locked : ∃ frame ∈ left, holds frame = true) :
    holder = some thread ∧ rest.countP holds = 0 := by
  have count := holding _ _ found
  rw [List.countP_append] at count
  have some_left : 0 < left.countP holds := List.countP_pos_iff.mpr locked
  split at count
  · exact ⟨‹_›, by omega⟩
  · omega

theorem move_of_leaves {left rest : List Frame} (holding : Holding holds holder threads)
    (found : threads[thread]? = some (left ++ rest)) (free : ¬ ∃ frame ∈ left, holds frame = true) :
    Holding holds holder (threads.set thread rest) := by
  refine holding.move found ?_
  have none_left : left.countP holds = 0 :=
    List.countP_eq_zero.mpr fun frame member held => free ⟨frame, member, held⟩
  rw [List.countP_append, none_left, Nat.zero_add]

end Holding

end Machine
