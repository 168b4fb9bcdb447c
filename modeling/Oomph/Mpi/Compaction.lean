import Oomph.Mpi.RequestQueue
import Mathlib.Data.List.Nodup

namespace Oomph.Mpi

/-! `split` walks the queue with the reported positions at hand and separates the
requests that stay from those that are ready.  The loop computes the same in place:
it writes the requests that stay over the front of the vector, and what `erase`
leaves is that front.
-/

/-- The requests of `queue`, the first of which has position `i`, that stay queued,
and those whose position comes up next in `positions`. -/
def split : List Nat → Nat → List Nat → List Nat × List Nat
  | _, _, [] => ([], [])
  | positions, i, e :: rest =>
    if positions.head? = some i then
      ((split positions.tail (i + 1) rest).1, e :: (split positions.tail (i + 1) rest).2)
    else
      (e :: (split positions (i + 1) rest).1, (split positions (i + 1) rest).2)

theorem split_add (positions : List Nat) (i : Nat) (queue : List Nat) :
    ((split positions i queue).1 : Multiset Nat) + (split positions i queue).2 = queue := by
  induction queue generalizing positions i with
  | nil => rfl
  | cons e rest ih =>
    by_cases next : positions.head? = some i
    · simp only [split, next, if_true]
      rw [← Multiset.cons_coe, Multiset.add_cons, ih, Multiset.cons_coe]
    · simp only [split, next, if_false]
      rw [← Multiset.cons_coe, Multiset.cons_add, ih, Multiset.cons_coe]

theorem split_length (positions : List Nat) (i : Nat) (queue : List Nat) :
    (split positions i queue).1.length + (split positions i queue).2.length = queue.length := by
  have sizes := congrArg Multiset.card (split_add positions i queue)
  simpa using sizes

/-- With the positions in increasing order, the ready requests are those at the
reported positions. -/
theorem mem_split_ready {positions : List Nat} {i e : Nat} {queue : List Nat}
    (sorted : positions.Pairwise (· < ·)) (later : ∀ position ∈ positions, i ≤ position) :
    e ∈ (split positions i queue).2 ↔
      ∃ position ∈ positions, queue[position - i]? = some e := by
  induction queue generalizing positions i with
  | nil => simp [split]
  | cons head rest ih =>
    cases positions with
    | nil =>
      have empty := @ih [] (i + 1) .nil (by simp)
      simpa [split] using empty
    | cons first others =>
      have firstLater := later first (by simp)
      obtain ⟨below, othersSorted⟩ := List.pairwise_cons.mp sorted
      by_cases next : first = i
      · subst first
        have othersLater : ∀ position ∈ others, i + 1 ≤ position :=
          fun position member => below position member
        have tail := ih othersSorted othersLater
        simp only [split, List.head?_cons, if_true, List.tail_cons, List.mem_cons, tail]
        constructor
        · rintro (same | ⟨position, member, found⟩)
          · exact ⟨i, .inl rfl, by simp [same]⟩
          · have shift : position - i = position - (i + 1) + 1 := by
              have := othersLater position member
              omega
            exact ⟨position, .inr member, by rw [shift, List.getElem?_cons_succ, found]⟩
        · rintro ⟨position, same | member, found⟩
          · subst position
            exact .inl (by simpa using found.symm)
          · have shift : position - i = position - (i + 1) + 1 := by
              have := othersLater position member
              omega
            rw [shift, List.getElem?_cons_succ] at found
            exact .inr ⟨position, member, found⟩
      · have allLater : ∀ position ∈ first :: others, i + 1 ≤ position := by
          intro position member
          rcases List.mem_cons.mp member with same | member
          · omega
          · have := below position member
            omega
        have tail := ih sorted allLater
        have skip : ¬ (first :: others).head? = some i := by simpa using next
        simp only [split, skip, if_false, tail]
        refine exists_congr fun position => and_congr_right fun member => ?_
        have shift : position - i = position - (i + 1) + 1 := by
          have := allLater position member
          omega
        rw [shift, List.getElem?_cons_succ]

def OnlyIndices (before after : Heap) : Prop :=
  ∀ e, after e = { before e with index := (after e).index }

theorem OnlyIndices.refl (heap : Heap) : OnlyIndices heap heap := fun _ => rfl

theorem OnlyIndices.trans {first second third : Heap} (earlier : OnlyIndices first second)
    (later : OnlyIndices second third) : OnlyIndices first third := by
  intro e
  rw [later e, earlier e]

theorem OnlyIndices.setIndex (heap : Heap) (e index : Nat) :
    OnlyIndices heap (heap.setIndex e index) := by
  intro other
  by_cases same : other = e
  · subst other; simp [Heap.setIndex]
  · simp [Heap.setIndex, same]

theorem Heap.setIndex_of_ne {heap : Heap} {e other : Nat} (index : Nat) (different : other ≠ e) :
    heap.setIndex e index other = heap other := by
  simp [Heap.setIndex, different]

variable {indices positions rest : List Nat} {scan : Scan} {i qs : Nat}

private theorem visit_ready {e : Nat} (found : scan.queue[i]? = some e)
    (next : indices[scan.k]? = some i) :
    scan.visit indices i = { scan with ready := scan.ready ++ [e], k := scan.k + 1 } := by
  simp [Scan.visit, found, next]

private theorem visit_moved {e : Nat} (found : scan.queue[i]? = some e)
    (other : indices[scan.k]? ≠ some i) (behind : scan.j < i) :
    scan.visit indices i = { scan with
      heap := scan.heap.setIndex e scan.j
      queue := scan.queue.set scan.j e
      j := scan.j + 1 } := by
  simp [Scan.visit, found, other, behind]

private theorem visit_kept {e : Nat} (found : scan.queue[i]? = some e)
    (other : indices[scan.k]? ≠ some i) (level : ¬ scan.j < i) :
    scan.visit indices i = { scan with j := scan.j + 1 } := by
  simp [Scan.visit, found, other, level]

private theorem head_of_drop {k : Nat} (remaining : indices.drop k = positions ++ [qs]) :
    indices[k]? = (positions ++ [qs]).head? := by
  rw [← remaining, List.head?_drop]

private theorem next_of_head {k : Nat} (remaining : indices.drop k = positions ++ [qs])
    (next : positions.head? = some i) :
    indices[k]? = some i ∧ indices.drop (k + 1) = positions.tail ++ [qs] := by
  cases positions with
  | nil => simp at next
  | cons first others =>
    have same : first = i := by simpa using next
    constructor
    · rw [head_of_drop remaining, same]; rfl
    · rw [← List.drop_drop, remaining]; rfl

private theorem other_of_head {k : Nat} (remaining : indices.drop k = positions ++ [qs])
    (next : ¬ positions.head? = some i) (inside : i < qs) : indices[k]? ≠ some i := by
  rw [head_of_drop remaining]
  cases positions with
  | nil =>
    intro same
    have : qs = i := by simpa using same
    omega
  | cons first others => simpa using next

private theorem take_set_succ {queue : List Nat} {j e : Nat} (inside : j < queue.length) :
    (queue.set j e).take (j + 1) = queue.take j ++ [e] := by
  rw [List.take_add_one, List.take_set_of_le (Nat.le_refl j)]
  simp [inside]

/-- From position `i` on, the loop appends to the front of the vector what `split`
keeps of the rest, and to the ready list what it finds ready. -/
theorem visit_rest (indices : List Nat) (scan : Scan) (positions : List Nat) (i : Nat)
    (unseen : scan.queue.drop i = rest) (size : scan.queue.length = qs)
    (remaining : indices.drop scan.k = positions ++ [qs]) (behind : scan.j ≤ i) :
    let final := (List.range' i rest.length).foldl (Scan.visit indices) scan
    final.queue.take final.j = scan.queue.take scan.j ++ (split positions i rest).1 ∧
      final.ready = scan.ready ++ (split positions i rest).2 ∧
      final.j = scan.j + (split positions i rest).1.length ∧ final.queue.length = qs := by
  induction rest generalizing i scan positions with
  | nil => simp [split, size]
  | cons e rest ih =>
    have found : scan.queue[i]? = some e := by
      rw [← List.head?_drop, unseen]; rfl
    have inside : i < qs := by
      rw [← size]
      exact (List.getElem?_eq_some_iff.mp found).1
    have unseenNext : scan.queue.drop (i + 1) = rest := by
      rw [← List.drop_drop, unseen]; rfl
    simp only [List.length_cons, List.range'_succ, List.foldl_cons]
    by_cases next : positions.head? = some i
    · obtain ⟨reported, remainingNext⟩ := next_of_head remaining next
      rw [visit_ready found reported]
      obtain ⟨front, ready, count, length⟩ := ih
        { scan with ready := scan.ready ++ [e], k := scan.k + 1 } positions.tail (i + 1)
        unseenNext size remainingNext (by simp; omega)
      simp only [split, next, if_true]
      exact ⟨front, by rw [ready, List.append_assoc]; rfl, count, length⟩
    · have other := other_of_head remaining next inside
      simp only [split, next, if_false]
      by_cases moves : scan.j < i
      · rw [visit_moved found other moves]
        obtain ⟨front, ready, count, length⟩ := ih
          { scan with
            heap := scan.heap.setIndex e scan.j
            queue := scan.queue.set scan.j e
            j := scan.j + 1 }
          positions (i + 1)
          (by simpa [List.drop_set_of_lt (by omega : scan.j < i + 1)] using unseenNext)
          (by simpa using size) remaining (by simp; omega)
        refine ⟨?_, ready, ?_, length⟩
        · rw [front, take_set_succ (by omega), List.append_assoc]; rfl
        · rw [count, List.length_cons]; dsimp only; omega
      · rw [visit_kept found other moves]
        have level : scan.j = i := by omega
        obtain ⟨front, ready, count, length⟩ := ih
          { scan with j := scan.j + 1 } positions (i + 1) unseenNext size remaining (by simp; omega)
        refine ⟨?_, ready, ?_, length⟩
        · rw [front, List.take_add_one, level, found, List.append_assoc]; rfl
        · rw [count, List.length_cons]; dsimp only; omega

/-- The loop changes no request but the `m_index` of those that stay, and leaves each
of them with its new position. -/
theorem visit_rest_heap (indices : List Nat) (scan : Scan) (positions : List Nat) (i : Nat)
    (unseen : scan.queue.drop i = rest) (size : scan.queue.length = qs)
    (remaining : indices.drop scan.k = positions ++ [qs]) (behind : scan.j ≤ i)
    (distinct : rest.Nodup)
    (indexed : ∀ offset e, rest[offset]? = some e → (scan.heap e).index = i + offset) :
    let final := (List.range' i rest.length).foldl (Scan.visit indices) scan
    OnlyIndices scan.heap final.heap ∧
      (∀ e, e ∉ rest → final.heap e = scan.heap e) ∧
      ∀ offset e, (split positions i rest).1[offset]? = some e →
        (final.heap e).index = scan.j + offset := by
  induction rest generalizing i scan positions with
  | nil => simp [split, OnlyIndices.refl]
  | cons e rest ih =>
    have found : scan.queue[i]? = some e := by
      rw [← List.head?_drop, unseen]; rfl
    have inside : i < qs := by
      rw [← size]
      exact (List.getElem?_eq_some_iff.mp found).1
    have unseenNext : scan.queue.drop (i + 1) = rest := by
      rw [← List.drop_drop, unseen]; rfl
    obtain ⟨fresh, distinctRest⟩ := List.nodup_cons.mp distinct
    have indexedRest : ∀ offset other, rest[offset]? = some other →
        (scan.heap other).index = i + 1 + offset := by
      intro offset other foundOther
      have := indexed (offset + 1) other (by simpa using foundOther)
      omega
    simp only [List.length_cons, List.range'_succ, List.foldl_cons]
    by_cases next : positions.head? = some i
    · obtain ⟨reported, remainingNext⟩ := next_of_head remaining next
      rw [visit_ready found reported]
      obtain ⟨only, same, placed⟩ := ih
        { scan with ready := scan.ready ++ [e], k := scan.k + 1 } positions.tail (i + 1)
        unseenNext size remainingNext (by simp; omega) distinctRest indexedRest
      refine ⟨only, fun other absent => same other (by simp_all), ?_⟩
      simpa only [split, next, if_true] using placed
    · have other := other_of_head remaining next inside
      simp only [split, next, if_false]
      by_cases moves : scan.j < i
      · rw [visit_moved found other moves]
        have elsewhere : ∀ offset other, rest[offset]? = some other →
            (scan.heap.setIndex e scan.j other).index = i + 1 + offset := by
          intro offset other foundOther
          have different : other ≠ e := by
            rintro rfl
            exact fresh (List.mem_of_getElem? foundOther)
          rw [Heap.setIndex_of_ne _ different, indexedRest offset other foundOther]
        obtain ⟨only, same, placed⟩ := ih
          { scan with
            heap := scan.heap.setIndex e scan.j
            queue := scan.queue.set scan.j e
            j := scan.j + 1 }
          positions (i + 1)
          (by simpa [List.drop_set_of_lt (by omega : scan.j < i + 1)] using unseenNext)
          (by simpa using size) remaining (by simp; omega) distinctRest elsewhere
        refine ⟨(OnlyIndices.setIndex _ _ _).trans only, ?_, ?_⟩
        · intro x absent
          rw [List.mem_cons, not_or] at absent
          exact (same x absent.2).trans (Heap.setIndex_of_ne _ absent.1)
        · intro offset x kept
          cases offset with
          | zero =>
            have same' : e = x := by simpa using kept
            subst x
            rw [same e fresh]
            simp [Heap.setIndex]
          | succ offset =>
            rw [placed offset x (by simpa using kept)]
            dsimp only
            omega
      · rw [visit_kept found other moves]
        have level : scan.j = i := by omega
        obtain ⟨only, same, placed⟩ := ih
          { scan with j := scan.j + 1 } positions (i + 1) unseenNext size remaining (by simp; omega)
          distinctRest indexedRest
        refine ⟨only, fun x absent => same x (by simp_all), ?_⟩
        intro offset x kept
        cases offset with
        | zero =>
          have same' : e = x := by simpa using kept
          subst x
          rw [same e fresh, level]
          exact indexed 0 e rfl
        | succ offset =>
          rw [placed offset x (by simpa using kept)]
          dsimp only
          omega

def Indexed (heap : Heap) (queue : List Nat) : Prop :=
  ∀ i e, queue[i]? = some e → (heap e).index = i

/-- The queue after compaction and the ready list, for any report. -/
theorem compact_split (heap : Heap) (queue positions : List Nat) :
    (compact heap queue positions).queue = (split positions 0 queue).1 ∧
      (compact heap queue positions).ready = (split positions 0 queue).2 := by
  have loop := visit_rest (positions ++ [queue.length])
    { heap, queue, ready := [], k := 0, j := 0 } positions 0 rfl rfl rfl (Nat.le_refl 0)
  simp only [List.drop_zero, List.take_zero, List.nil_append, Nat.zero_add] at loop
  obtain ⟨front, ready, count, length⟩ := loop
  simp only [compact, List.range_eq_range']
  refine ⟨?_, ready⟩
  rw [ready, length, ← front, count]
  congr 1
  have := split_length positions 0 queue
  omega

theorem compact_heap {heap : Heap} {queue : List Nat} (positions : List Nat)
    (distinct : queue.Nodup) (indexed : Indexed heap queue) :
    OnlyIndices heap (compact heap queue positions).heap ∧
      (∀ e, e ∉ queue → (compact heap queue positions).heap e = heap e) ∧
      Indexed (compact heap queue positions).heap (compact heap queue positions).queue := by
  have loop := visit_rest_heap (positions ++ [queue.length])
    { heap, queue, ready := [], k := 0, j := 0 } positions 0 rfl rfl rfl (Nat.le_refl 0) distinct (by simpa [Indexed] using indexed)
  simp only [List.drop_zero, Nat.zero_add] at loop
  rw [(compact_split heap queue positions).1]
  simpa only [compact, Indexed, List.range_eq_range'] using loop

end Oomph.Mpi
