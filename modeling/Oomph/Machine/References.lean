import Mathlib.Data.List.Nodup
import Mathlib.Logic.Function.Basic
import Oomph.Machine.Pool

namespace Machine

/-! Cells and resources are numbered in the order in which they are made.  A cell is gone, is empty or
refers to a resource, and each resource counts the cells that refer to it.  The resource is
released when its count falls to zero; the cell that was the last to refer to it is emptied only
after that, and until then the resource is `leaving`.
-/

structure References where
  cells : List (Option (Option Nat))
  made : Nat
  count : Nat → Nat
  leaving : List Nat
  released : List Nat

namespace References

variable {r : References} {resource cell : Nat}

def referring (r : References) (resource : Nat) : Nat :=
  r.cells.count (some (some resource))

/-- The counts are right, and what has the count zero was released once. -/
structure Sound (r : References) : Prop where
  balance : ∀ resource, r.referring resource = r.count resource + r.leaving.count resource
  released_iff : ∀ resource < r.made, resource ∈ r.released ↔ r.count resource = 0
  valid : ∀ resource ∈ r.released, resource < r.made
  fresh : ∀ resource, r.made ≤ resource → r.count resource = 0
  nodup : r.released.Nodup
  sublist : r.leaving.Sublist r.released

theorem referring_append (r : References) (cell : Option (Option Nat)) (resource : Nat) :
    (r.cells ++ [cell]).count (some (some resource)) =
      r.referring resource + if cell = some (some resource) then 1 else 0 := by
  rw [List.count_append, List.count_singleton, referring]
  simp only [beq_iff_eq]

theorem count_set_add {cells : List (Option (Option Nat))} {cell : Nat} {old : Option (Option Nat)}
    (found : cells[cell]? = some old) (new : Option (Option Nat)) (resource : Nat) :
    (cells.set cell new).count (some (some resource)) + (if old = some (some resource) then 1 else 0) =
      cells.count (some (some resource)) + if new = some (some resource) then 1 else 0 := by
  have refers (asked : Option (Option Nat)) : (asked == some (some resource)).toNat =
      if asked = some (some resource) then 1 else 0 := by
    by_cases same : asked = some (some resource) <;> simp [same]
  have moved := countP_set_add (· == some (some resource)) found new
  rwa [refers, refers] at moved

namespace Sound

theorem mem_leaving (sound : r.Sound) (leaves : resource ∈ r.leaving) :
    resource ∈ r.released :=
  sound.sublist.subset leaves

theorem count_leaving_le (sound : r.Sound) (resource : Nat) :
    r.leaving.count resource ≤ 1 :=
  List.nodup_iff_count_le_one.mp (sound.nodup.sublist sound.sublist) resource

theorem count_of_leaving (sound : r.Sound) (leaves : resource ∈ r.leaving) :
    r.count resource = 0 :=
  have gone := sound.mem_leaving leaves
  (sound.released_iff resource (sound.valid resource gone)).mp gone

theorem not_mem_released (sound : r.Sound) (live : 0 < r.count resource) :
    resource ∉ r.released := by
  intro gone
  have zero := (sound.released_iff resource (sound.valid resource gone)).mp gone
  omega

theorem lt_made (sound : r.Sound) (live : 0 < r.count resource) :
    resource < r.made := by
  by_contra outside
  have zero := sound.fresh resource (Nat.le_of_not_lt outside)
  omega

/-- A cell that refers to what has the count zero is the last one, and is about to be emptied. -/
theorem leaving_of_count_eq_zero (sound : r.Sound)
    (found : r.cells[cell]? = some (some (some resource))) (zero : r.count resource = 0) :
    resource ∈ r.leaving := by
  have refers : 0 < r.referring resource :=
    List.count_pos_iff.mpr (List.mem_of_getElem? found)
  rw [sound.balance, zero, Nat.zero_add] at refers
  exact List.count_pos_iff.mp refers

theorem cell_eq_of_leaving (sound : r.Sound) {first second : Nat}
    (leaves : resource ∈ r.leaving)
    (here : r.cells[first]? = some (some (some resource)))
    (there : r.cells[second]? = some (some (some resource))) : first = second := by
  by_contra different
  have one := count_set_add here none resource
  have emptied : (r.cells.set first none)[second]? = some (some (some resource)) := by
    rw [List.getElem?_set_ne different, there]
  have another : 0 < (r.cells.set first none).count (some (some resource)) :=
    List.count_pos_iff.mpr (List.mem_of_getElem? emptied)
  have balance := sound.balance resource
  have zero := sound.count_of_leaving leaves
  have few := sound.count_leaving_le resource
  simp only [if_true, reduceCtorEq, if_false] at one
  unfold referring at balance
  omega

theorem addCells (sound : r.Sound) (number : Nat) :
    Sound { r with cells := r.cells ++ List.replicate number (some none) } := by
  refine { sound with balance := fun resource => ?_ }
  rw [referring, List.count_append, List.count_replicate, if_neg (by simp), Nat.add_zero]
  exact sound.balance resource

theorem make (sound : r.Sound) : Sound { r with
    cells := r.cells ++ [some (some r.made)]
    made := r.made + 1
    count := Function.update r.count r.made 1 } := by
  have unused : r.count r.made = 0 := sound.fresh r.made le_rfl
  have unreleased : r.made ∉ r.released := fun gone => (sound.valid _ gone).ne rfl
  refine ⟨fun resource => ?_, fun resource inside => ?_, fun resource gone => ?_,
    fun resource outside => ?_, sound.nodup, sound.sublist⟩
  · have balance := sound.balance resource
    rw [referring, referring_append]
    by_cases same : resource = r.made
    · subst same
      simp only [Function.update_self, if_true]
      omega
    · simp only [Function.update_of_ne same, Option.some.injEq, Ne.symm same, if_false]
      exact balance
  · by_cases same : resource = r.made
    · subst same
      simpa using unreleased
    · simp only [Function.update_of_ne same]
      exact sound.released_iff resource (Nat.lt_of_le_of_ne (Nat.le_of_lt_succ inside) same)
  · exact Nat.lt_succ_of_lt (sound.valid resource gone)
  · simp only [Function.update_of_ne (Nat.ne_of_gt outside)]
    exact sound.fresh resource (Nat.le_of_succ_le outside)

theorem recount (sound : r.Sound) {cells : List (Option (Option Nat))} {count : Nat}
    (live : 0 < r.count resource) (still : 0 < count)
    (own : cells.count (some (some resource)) + r.count resource = r.referring resource + count)
    (others : ∀ other, other ≠ resource → cells.count (some (some other)) = r.referring other) :
    Sound { r with cells, count := Function.update r.count resource count } := by
  have inside := sound.lt_made live
  refine ⟨fun other => ?_, fun other valid => ?_, sound.valid, fun other outside => ?_,
    sound.nodup, sound.sublist⟩
  · have balance := sound.balance other
    by_cases same : other = resource
    · subst same
      simp only [referring, Function.update_self] at own balance ⊢
      omega
    · simp only [referring, Function.update_of_ne same] at balance ⊢
      rw [others other same]
      exact balance
  · rw [sound.released_iff other valid]
    by_cases same : other = resource
    · subst same
      simp only [Function.update_self]
      omega
    · simp only [Function.update_of_ne same]
  · have different : other ≠ resource := by
      rintro rfl
      exact Nat.not_lt.mpr outside inside
    simp only [Function.update_of_ne different]
    exact sound.fresh other outside

theorem refer (sound : r.Sound) (empty : r.cells[cell]? = some (some none))
    (live : 0 < r.count resource) : Sound { r with
      cells := r.cells.set cell (some (some resource))
      count := Function.update r.count resource (r.count resource + 1) } := by
  refine sound.recount live (Nat.succ_pos _) ?_ fun other different => ?_
  · have set := count_set_add empty (some (some resource)) resource
    simp only [reduceCtorEq, Option.some.injEq, if_false, if_true] at set
    unfold referring
    omega
  · have set := count_set_add empty (some (some resource)) other
    simp only [reduceCtorEq, Option.some.injEq, Ne.symm different, if_false] at set
    exact set

theorem drop (sound : r.Sound) (found : r.cells[cell]? = some (some (some resource)))
    (shared : 1 < r.count resource) : Sound { r with
      cells := r.cells.set cell (some none)
      count := Function.update r.count resource (r.count resource - 1) } := by
  refine sound.recount (by omega) (by omega) ?_ fun other different => ?_
  · have set := count_set_add found (some none) resource
    simp only [reduceCtorEq, Option.some.injEq, if_false, if_true] at set
    unfold referring
    omega
  · have set := count_set_add found (some none) other
    simp only [reduceCtorEq, Option.some.injEq, Ne.symm different, if_false] at set
    exact set

theorem move (sound : r.Sound) {source target : Nat} {content : Option Nat}
    (found : r.cells[source]? = some (some content)) (empty : r.cells[target]? = some (some none)) :
    Sound { r with cells := (r.cells.set source (some none)).set target (some content) } := by
  refine { sound with balance := fun resource => ?_ }
  have balance := sound.balance resource
  have taken := count_set_add found (some none) resource
  have still : (r.cells.set source (some none))[target]? = some (some none) := by
    by_cases same : source = target
    · subst same
      rw [List.getElem?_set_self (List.getElem?_eq_some_iff.mp found).1]
    · rw [List.getElem?_set_ne same, empty]
  have given := count_set_add still (some content) resource
  simp only [referring, reduceCtorEq, Option.some.injEq, if_false] at taken given balance ⊢
  omega

theorem release (sound : r.Sound) (last : r.count resource = 1) : Sound { r with
    count := Function.update r.count resource 0
    leaving := resource :: r.leaving
    released := resource :: r.released } := by
  have inside : resource < r.made := sound.lt_made (by omega)
  have unreleased : resource ∉ r.released := sound.not_mem_released (by omega)
  refine ⟨fun other => ?_, fun other valid => ?_, fun other gone => ?_, fun other outside => ?_,
    List.nodup_cons.mpr ⟨unreleased, sound.nodup⟩, sound.sublist.cons_cons resource⟩
  · have balance := sound.balance other
    by_cases same : other = resource
    · subst same
      simp only [referring, Function.update_self, List.count_cons_self] at balance ⊢
      omega
    · simp only [referring, Function.update_of_ne same, List.count_cons_of_ne (Ne.symm same)]
        at balance ⊢
      exact balance
  · by_cases same : other = resource
    · subst same
      simp
    · simp only [Function.update_of_ne same, List.mem_cons, same, false_or]
      exact sound.released_iff other valid
  · rcases List.mem_cons.mp gone with rfl | older
    · exact inside
    · exact sound.valid other older
  · have different : other ≠ resource := by
      rintro rfl
      exact Nat.not_lt.mpr outside inside
    simp only [Function.update_of_ne different]
    exact sound.fresh other outside

theorem leave (sound : r.Sound) {rest : List Nat}
    (found : r.cells[cell]? = some (some (some resource))) (leaving : r.leaving = resource :: rest) :
    Sound { r with
      cells := r.cells.set cell (some none)
      leaving := rest } := by
  refine { sound with
    balance := fun other => ?_
    sublist := (List.sublist_cons_self resource rest).trans (leaving ▸ sound.sublist) }
  have balance := sound.balance other
  have set := count_set_add found (some none) other
  rw [leaving] at balance
  by_cases same : other = resource
  · subst same
    simp only [referring, List.count_cons_self, reduceCtorEq, Option.some.injEq, if_false,
      if_true] at set balance ⊢
    omega
  · simp only [referring, List.count_cons_of_ne (Ne.symm same), reduceCtorEq,
      Option.some.injEq, Ne.symm same, if_false] at set balance ⊢
    omega

theorem close (sound : r.Sound) (empty : r.cells[cell]? = some (some none)) :
    Sound { r with cells := r.cells.set cell none } := by
  refine { sound with balance := fun resource => ?_ }
  have balance := sound.balance resource
  have set := count_set_add empty none resource
  simp only [referring, reduceCtorEq, Option.some.injEq, if_false] at set balance ⊢
  omega

theorem closeShared (sound : r.Sound) (found : r.cells[cell]? = some (some (some resource)))
    (shared : 1 < r.count resource) : Sound { r with
      cells := r.cells.set cell none
      count := Function.update r.count resource (r.count resource - 1) } := by
  have inside := (List.getElem?_eq_some_iff.mp found).1
  have closed := (sound.drop found shared).close (List.getElem?_set_self inside)
  simpa only [List.set_set] using closed

theorem closeLast (sound : r.Sound) (found : r.cells[cell]? = some (some (some resource)))
    (last : r.count resource = 1) : Sound { r with
      cells := r.cells.set cell none
      count := Function.update r.count resource 0
      released := resource :: r.released } := by
  have inside := (List.getElem?_eq_some_iff.mp found).1
  have closed := ((sound.release last).leave found rfl).close (List.getElem?_set_self inside)
  simpa only [List.set_set] using closed

end Sound

end References

end Machine
