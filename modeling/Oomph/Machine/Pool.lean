import Mathlib.Algebra.BigOperators.Group.List.Basic
import Mathlib.Algebra.Order.Group.Multiset
import Oomph.Machine.Stacks

namespace Machine

/-! Threads and communicators are kept in lists, and what they hold between them is
the sum of what each holds.  A step moves one party; `total_split` separates that
party's share from the share of all others, which no step of this party changes.
-/

variable {Party Share : Type*} [AddCommMonoid Share]

def total (share : Party → Share) (pool : List Party) : Share :=
  (pool.map share).sum

@[simp] theorem total_nil (share : Party → Share) : total share [] = 0 := rfl

@[simp] theorem total_cons (share : Party → Share) (party : Party) (pool : List Party) :
    total share (party :: pool) = share party + total share pool := by
  simp [total]

@[simp] theorem total_append (share : Party → Share) (front back : List Party) :
    total share (front ++ back) = total share front + total share back := by
  simp [total]

theorem total_add (first second : Party → Share) (pool : List Party) :
    total (fun party => first party + second party) pool = total first pool + total second pool := by
  induction pool with
  | nil => simp
  | cons party pool ih => rw [total_cons, total_cons, total_cons, ih, add_add_add_comm]

theorem total_replicate {share : Party → Share} {party : Party} (count : Nat)
    (nothing : share party = 0) : total share (List.replicate count party) = 0 := by
  simp [total, nothing]

/-- The others' share is the same whatever the moving party becomes. -/
theorem total_split (share : Party → Share) {pool : List Party} {index : Nat} {party : Party}
    (found : pool[index]? = some party) :
    ∃ others, total share pool = share party + others ∧
      ∀ moved, total share (pool.set index moved) = share moved + others := by
  induction pool generalizing index with
  | nil => simp at found
  | cons head tail ih =>
    cases index with
    | zero =>
      simp only [List.getElem?_cons_zero, Option.some.injEq] at found
      subst head
      exact ⟨total share tail, by simp, fun moved => by simp⟩
    | succ index =>
      obtain ⟨others, whole, moves⟩ := ih (by simpa using found)
      refine ⟨share head + others, ?_, fun moved => ?_⟩
      · rw [total_cons, whole, add_left_comm]
      · rw [List.set_cons_succ, total_cons, moves, add_left_comm]

theorem total_modify (share : Party → Share) {pool : List Party} {index : Nat} {party : Party}
    (found : pool[index]? = some party) (change : Party → Party) :
    ∃ others, total share pool = share party + others ∧
      total share (pool.modify index change) = share (change party) + others := by
  obtain ⟨others, whole, moves⟩ := total_split share found
  refine ⟨others, whole, ?_⟩
  rw [List.modify_eq_set_getElem?, found]
  exact moves (change party)

theorem total_modify_same (share : Party → Share) (pool : List Party) (index : Nat)
    {change : Party → Party} (same : ∀ party, share (change party) = share party) :
    total share (pool.modify index change) = total share pool := by
  cases found : pool[index]? with
  | none => rw [List.modify_eq_set_getElem?, found]; rfl
  | some party =>
    obtain ⟨others, whole, moved⟩ := total_modify share found change
    rw [moved, whole, same]

theorem map_getElem?_modify {Attr : Type*} {attr : Party → Attr} {change : Party → Party}
    (same : ∀ party, attr (change party) = attr party) (pool : List Party) (changed index : Nat) :
    (pool.modify changed change)[index]?.map attr = pool[index]?.map attr := by
  rw [List.getElem?_modify]
  cases pool[index]? with
  | none => rfl
  | some party =>
    by_cases here : changed = index
    · simp [here, same]
    · simp [here]

theorem getElem?_modify_cases {pool : List Party} {change : Party → Party} {changed index : Nat}
    {party : Party} (found : (pool.modify changed change)[index]? = some party) :
    ∃ before, pool[index]? = some before ∧
      (party = before ∧ index ≠ changed ∨ party = change before ∧ index = changed) := by
  rw [List.getElem?_modify] at found
  obtain ⟨before, old, rfl⟩ := Option.map_eq_some_iff.mp found
  by_cases here : changed = index
  · exact ⟨before, old, .inr ⟨by simp [here], here.symm⟩⟩
  · exact ⟨before, old, .inl ⟨by simp [here], Ne.symm here⟩⟩

theorem countP_set_add {pool : List Party} {index : Nat} {party : Party} (kind : Party → Bool)
    (found : pool[index]? = some party) (moved : Party) :
    (pool.set index moved).countP kind + (kind party).toNat =
      pool.countP kind + (kind moved).toNat := by
  induction pool generalizing index with
  | nil => simp at found
  | cons head tail ih =>
    cases index with
    | zero =>
      simp only [List.getElem?_cons_zero, Option.some.injEq] at found
      subst head
      cases here : kind party <;> cases there : kind moved <;> simp [here, there]
    | succ index =>
      have rest := @ih index (by simpa using found)
      simp only [List.set_cons_succ, List.countP_cons]
      omega

theorem mem_total {Token : Type*} {share : Party → Multiset Token} {pool : List Party}
    {token : Token} : token ∈ total share pool ↔ ∃ party ∈ pool, token ∈ share party := by
  induction pool with
  | nil => simp
  | cons head tail ih => simp [ih]

/-- What the parties hold at most once between them, one party holds. -/
theorem index_eq_of_count_le_one {Token : Type*} [DecidableEq Token]
    {share : Party → Multiset Token} {pool : List Party} {token : Token} {i j : Nat}
    {first second : Party} (one : (total share pool).count token ≤ 1)
    (here : pool[i]? = some first) (holds : token ∈ share first)
    (there : pool[j]? = some second) (also : token ∈ share second) : i = j := by
  induction pool generalizing i j with
  | nil => simp at here
  | cons head tail ih =>
    rw [total_cons, Multiset.count_add] at one
    -- A token of the head is not one of the tail.
    have apart : ∀ {k : Nat} {party : Party}, token ∈ share head → tail[k]? = some party →
        token ∉ share party := by
      intro k party inHead found inTail
      have some_head := Multiset.count_pos.mpr inHead
      have some_tail := Multiset.count_pos.mpr
        (mem_total.mpr ⟨party, List.mem_of_getElem? found, inTail⟩)
      omega
    cases i with
    | zero =>
      cases j with
      | zero => rfl
      | succ j =>
        cases here
        exact absurd also (apart holds there)
    | succ i =>
      cases j with
      | zero =>
        cases there
        exact absurd holds (apart also here)
      | succ j => exact congrArg (· + 1) (ih (by omega) here there)

theorem Moves.total_same {Frame : Type*} {share : List Frame → Share}
    {Step : List Frame → List Frame → Prop} {thread : Nat} {before after : List (List Frame)}
    (moves : Moves Step thread before after)
    (keeps : ∀ stack moved, Step stack moved → share moved = share stack) :
    total share after = total share before := by
  cases moves with
  | same => rfl
  | move stack moved found stepped =>
    obtain ⟨others, whole, moves⟩ := total_split share found
    rw [moves, whole, keeps stack moved stepped]

end Machine
