import Mathlib.Algebra.Divisibility.Basic
import Mathlib.Algebra.Group.Nat.Defs
import Mathlib.Algebra.Order.Group.Nat

namespace Oomph.UniqueFunction

/-! A `unique_function` keeps a large callable on the heap and a small one in a buffer of its own.
-/

def roundUp (size align : Nat) : Nat :=
  (size + (align - 1)) / align * align

/-- The type of a callable, of which only the layout matters. -/
structure Callable where
  size : Nat
  align : Nat
  positive : 0 < size
  power : ∃ exponent, align = 2 ^ exponent
  divides : align ∣ size
deriving DecidableEq

namespace Callable

/-- `alignof(concrete_t<F>)`; the object starts with the pointer to its table of functions. -/
def concreteAlign (f : Callable) : Nat :=
  max 8 f.align

def concreteSize (f : Callable) : Nat :=
  roundUp (roundUp 8 f.align + f.size) f.concreteAlign

def Fits (S : Nat) (f : Callable) : Prop :=
  f.concreteSize ≤ roundUp S 16 ∧ f.concreteAlign ≤ 16

instance (S : Nat) (f : Callable) : Decidable (f.Fits S) :=
  inferInstanceAs (Decidable (_ ∧ _))

/-- The test of `enable_if_small_function_t` -/
def small (S : Nat) (f : Callable) : Bool :=
  f.size ≤ S

end Callable

theorem le_roundUp {size align : Nat} (positive : 0 < align) : size ≤ roundUp size align := by
  have whole := Nat.div_add_mod (size + (align - 1)) align
  have part := Nat.mod_lt (size + (align - 1)) positive
  rw [roundUp, Nat.mul_comm]
  omega

theorem dvd_roundUp (size align : Nat) : align ∣ roundUp size align :=
  Nat.dvd_mul_left align _

/-- Rounding up gives the least multiple that is not smaller. -/
theorem roundUp_le_iff {size align bound : Nat} (positive : 0 < align) (multiple : align ∣ bound) :
    roundUp size align ≤ bound ↔ size ≤ bound := by
  constructor
  · exact (le_roundUp positive).trans
  · intro below
    obtain ⟨count, rfl⟩ := multiple
    rw [roundUp, Nat.mul_comm]
    apply Nat.mul_le_mul_left
    apply Nat.le_of_lt_succ
    rw [Nat.div_lt_iff_lt_mul positive, Nat.succ_mul, Nat.mul_comm count]
    omega

/-- What comes after a multiple of the alignment is rounded up alone. -/
theorem roundUp_add {size align block : Nat} (positive : 0 < align) (multiple : align ∣ block) :
    roundUp size align + block = roundUp (size + block) align := by
  obtain ⟨count, rfl⟩ := multiple
  rw [roundUp, roundUp, Nat.add_right_comm, Nat.add_mul_div_left _ _ positive, Nat.add_mul,
    Nat.mul_comm align]

namespace Callable

variable {f : Callable}

theorem align_pos (f : Callable) : 0 < f.align := by
  obtain ⟨exponent, power⟩ := f.power
  rw [power]
  exact Nat.two_pow_pos exponent

theorem concreteAlign_dvd (aligned : f.align ≤ 16) : f.concreteAlign ∣ 16 := by
  obtain ⟨exponent, power⟩ := f.power
  rw [power] at aligned
  have bound : exponent ≤ 4 := (Nat.pow_le_pow_iff_right (by decide)).mp aligned
  unfold concreteAlign
  rcases le_total 8 f.align with wide | narrow
  · rw [max_eq_right wide, power]
    exact Nat.pow_dvd_pow 2 bound
  · rw [max_eq_left narrow]
    decide

theorem align_dvd_concreteAlign (f : Callable) : f.align ∣ f.concreteAlign := by
  obtain ⟨exponent, power⟩ := f.power
  unfold concreteAlign
  rcases le_total 8 f.align with wide | narrow
  · rw [max_eq_right wide]
  · rw [max_eq_left narrow, power]
    rw [power] at narrow
    exact Nat.pow_dvd_pow 2 ((Nat.pow_le_pow_iff_right (m := 3) (by decide)).mp narrow)

/-- An object fits a buffer that is aligned as the callable wants and has eight bytes more than the
callable. -/
theorem fits_iff {S : Nat} : f.Fits S ↔ f.align ≤ 16 ∧ f.size + 8 ≤ roundUp S 16 := by
  have aligned : f.concreteAlign ≤ 16 ↔ f.align ≤ 16 := by simp [concreteAlign]
  rw [Fits, aligned, and_comm]
  refine and_congr_right fun narrow => ?_
  have divides : f.concreteAlign ∣ roundUp S 16 :=
    (concreteAlign_dvd narrow).trans (dvd_roundUp S 16)
  have positive : 0 < f.concreteAlign := lt_max_of_lt_left (by decide)
  rw [concreteSize, roundUp_le_iff positive divides, roundUp_add f.align_pos f.divides,
    roundUp_le_iff f.align_pos (f.align_dvd_concreteAlign.trans divides), Nat.add_comm]

theorem room_iff {S : Nat} :
    (∀ size, 0 < size → size ≤ S → size + 8 ≤ roundUp S 16) ↔ S = 0 ∨ 0 < S % 16 ∧ S % 16 ≤ 8 := by
  unfold roundUp
  constructor
  · intro room
    rcases Nat.eq_zero_or_pos S with zero | positive
    · exact .inl zero
    · have last := room S positive le_rfl
      omega
  · intro sizes size positive small
    omega

end Callable

/-- With the default size of the buffer the small callables that fit are those without extended
alignment. -/
theorem fits_default {f : Callable} (small : f.small 40 = true) : f.Fits 40 ↔ f.align ≤ 16 := by
  have size : f.size ≤ 40 := by simpa [Callable.small] using small
  have room := Callable.room_iff.mpr (.inr ⟨by decide, by decide⟩) f.size f.positive size
  rw [Callable.fits_iff, and_iff_left room]

/-- A small callable fits the buffer if it has no extended alignment and leaves eight bytes for the
pointer to its table.  The buffer always has these bytes if `S` is at most eight above a multiple
of sixteen, as the default is; any other buffer is too small for some callable that is accepted. -/
theorem small_fits_iff (S : Nat) :
    (∀ f : Callable, f.small S = true →
      (f.Fits S ↔ f.align ≤ 16 ∧ f.size + 8 ≤ roundUp S 16)) ∧
    ((∀ f : Callable, f.small S = true → (f.Fits S ↔ f.align ≤ 16)) ↔
      S = 0 ∨ 0 < S % 16 ∧ S % 16 ≤ 8) := by
  refine ⟨fun f _ => Callable.fits_iff, ?_⟩
  rw [← Callable.room_iff]
  constructor
  · intro fits size positive small
    let bytes : Callable := ⟨size, 1, positive, ⟨0, rfl⟩, one_dvd size⟩
    have placed := (fits bytes (by simpa [Callable.small, bytes] using small)).mpr (by simp [bytes])
    exact (Callable.fits_iff.mp placed).2
  · intro room f small
    have size : f.size ≤ S := by simpa [Callable.small] using small
    rw [Callable.fits_iff, and_iff_left (room f.size f.positive size)]

/-- A callable of forty bytes in the default buffer. -/
theorem small_fits_default :
    ∃ f : Callable, f.size = 40 ∧ f.align = 8 ∧ f.small 40 = true ∧ f.Fits 40 :=
  ⟨⟨40, 8, by decide, ⟨3, rfl⟩, by decide⟩, rfl, rfl, by decide,
    ((small_fits_iff 40).1 _ (by decide)).mpr (by decide)⟩

/-- A callable of 32 bytes that is aligned to 32 is accepted for the default buffer of 48 bytes; it
needs 64 bytes and the alignment 32.  A callable of 48 bytes without extended alignment is accepted
for `S = 48`, whose buffer also has 48 bytes; it needs 56. -/
theorem accepted_callable_too_large :
    (∃ f : Callable, f.size = 32 ∧ f.align = 32 ∧ f.small 40 = true ∧ roundUp 40 16 = 48 ∧
      f.concreteSize = 64 ∧ f.concreteAlign = 32 ∧ ¬ f.Fits 40) ∧
    ∃ f : Callable, f.size = 48 ∧ f.align = 8 ∧ f.small 48 = true ∧ roundUp 48 16 = 48 ∧
      f.concreteSize = 56 ∧ ¬ f.Fits 48 := by
  constructor
  · exact ⟨⟨32, 32, by decide, ⟨5, rfl⟩, by decide⟩, rfl, rfl, by decide, by decide, by decide,
      by decide, by decide⟩
  · exact ⟨⟨48, 8, by decide, ⟨3, rfl⟩, by decide⟩, rfl, rfl, by decide, by decide, by decide,
      by decide⟩

end Oomph.UniqueFunction
