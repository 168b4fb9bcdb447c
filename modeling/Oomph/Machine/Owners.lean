import Mathlib.Data.Multiset.Range
import Oomph.Machine.Pool
import Oomph.Machine.Run

namespace Machine

/-! Resources are numbered in the order in which they are acquired.  Objects that own their resources
conserve them: each resource is held in one place or has been released once.  A program that never
releases what it does not hold can only go wrong by forgetting what it holds, and then the resource
is lost for good.
-/

structure Holdings where
  acquired : Nat
  held : Multiset Nat
  released : Multiset Nat

variable {before middle after : Holdings} {resource : Nat}

namespace Holdings

/-- Each resource is held in one place, or has been released once. -/
def Conserved (h : Holdings) : Prop :=
  h.held + h.released = Multiset.range h.acquired

/-- No resource is held in two places, released twice, or released while it is held. -/
def Exclusive (h : Holdings) : Prop :=
  h.held + h.released ≤ Multiset.range h.acquired

def known (h : Holdings) : Nat :=
  h.held.card + h.released.card

theorem Conserved.exclusive (conserved : before.Conserved) : before.Exclusive :=
  le_of_eq conserved

theorem Conserved.known_eq (conserved : before.Conserved) : before.known = before.acquired := by
  rw [known, ← Multiset.card_add, conserved, Multiset.card_range]

theorem Exclusive.conserved (exclusive : before.Exclusive) (all : before.acquired ≤ before.known) :
    before.Conserved := by
  apply Multiset.eq_of_le_of_card_le exclusive
  rw [Multiset.card_add, Multiset.card_range]
  exact all

theorem Conserved.count (conserved : before.Conserved) (valid : resource < before.acquired) :
    before.held.count resource + before.released.count resource = 1 := by
  rw [← Multiset.count_add, conserved]
  exact Multiset.count_eq_one_of_mem (Multiset.nodup_range _) (Multiset.mem_range.mpr valid)

theorem Exclusive.count_le (exclusive : before.Exclusive) (resource : Nat) :
    before.held.count resource + before.released.count resource ≤ 1 := by
  rw [← Multiset.count_add]
  exact (Multiset.count_le_of_le resource exclusive).trans
    (Multiset.nodup_iff_count_le_one.mp (Multiset.nodup_range _) resource)

theorem Exclusive.not_released (exclusive : before.Exclusive) (held : resource ∈ before.held) :
    resource ∉ before.released := by
  intro released
  have few := exclusive.count_le resource
  have one := Multiset.count_pos.mpr held
  have other := Multiset.count_pos.mpr released
  omega

/-- What is not conserved is a resource that nobody holds and that was not released. -/
theorem Exclusive.exists_lost (exclusive : before.Exclusive) (lost : ¬ before.Conserved) :
    ∃ resource < before.acquired, resource ∉ before.held ∧ resource ∉ before.released := by
  by_contra none
  push Not at none
  refine lost (le_antisymm exclusive ?_)
  rw [Multiset.le_iff_subset (Multiset.nodup_range _)]
  intro resource valid
  rw [Multiset.mem_add]
  by_cases held : resource ∈ before.held
  · exact .inl held
  · exact .inr (none resource (Multiset.mem_range.mp valid) held)

end Holdings

/-- Resources are acquired, and released by who holds them. -/
inductive Trade : Holdings → Holdings → Prop
  | keep (before : Holdings) : Trade before before
  | acquire {acquired : Nat} {held released : Multiset Nat} :
      Trade ⟨acquired, held, released⟩ ⟨acquired + 1, acquired ::ₘ held, released⟩
  | release {acquired : Nat} {held released : Multiset Nat} (resource : Nat) :
      Trade ⟨acquired, resource ::ₘ held, released⟩ ⟨acquired, held, resource ::ₘ released⟩
  | trans {before middle after : Holdings} :
      Trade before middle → Trade middle after → Trade before after

/-- Some of what was held is not held any more, although it was not released. -/
structure Forgets (before after : Holdings) : Prop where
  acquired : after.acquired = before.acquired
  held : after.held ≤ before.held
  released : after.released = before.released

def LossyTrade (before after : Holdings) : Prop :=
  ∃ kept, Trade before kept ∧ Forgets kept after

namespace Trade

theorem of_forgets (forgets : Forgets before after) (all : after.held = before.held) :
    Trade before after := by
  obtain ⟨acquired, held, released⟩ := before
  obtain ⟨_, _, _⟩ := after
  obtain ⟨rfl, -, rfl⟩ := forgets
  cases all
  exact .keep _

theorem lossy (trade : Trade before after) : LossyTrade before after :=
  ⟨after, trade, rfl, le_rfl, rfl⟩

theorem releaseAll {acquired : Nat} {held released : Multiset Nat} (resources : List Nat) :
    Trade ⟨acquired, resources + held, released⟩ ⟨acquired, held, resources + released⟩ := by
  induction resources generalizing released with
  | nil =>
    rw [Multiset.coe_nil, zero_add, zero_add]
    exact .keep _
  | cons resource rest ih =>
    rw [← Multiset.cons_coe, Multiset.cons_add, Multiset.cons_add,
      ← Multiset.add_cons resource rest released]
    exact .trans (.release resource) ih

theorem iterate {State : Type*} {holdings : State → Holdings} {act : State → State}
    (once : ∀ s, Trade (holdings s) (holdings (act s))) (count : Nat) (s : State) :
    Trade (holdings s) (holdings (act^[count] s)) := by
  induction count generalizing s with
  | zero => exact .keep _
  | succ count ih => exact .trans (once s) (ih (act s))

theorem exclusive (trade : Trade before after) (exclusive : before.Exclusive) :
    after.Exclusive := by
  induction trade with
  | keep => exact exclusive
  | @acquire acquired held released =>
    unfold Holdings.Exclusive at exclusive ⊢
    rw [Multiset.cons_add, Multiset.range_succ]
    exact (Multiset.cons_le_cons_iff acquired).mpr exclusive
  | release resource =>
    unfold Holdings.Exclusive at exclusive ⊢
    rw [Multiset.add_cons]
    rwa [Multiset.cons_add] at exclusive
  | trans _ _ first second => exact second (first exclusive)

/-- A trade neither loses resources nor finds lost ones. -/
theorem known_add (trade : Trade before after) :
    after.known + before.acquired = before.known + after.acquired := by
  induction trade with
  | keep => rfl
  | acquire =>
    simp only [Holdings.known, Multiset.card_cons]
    omega
  | release resource =>
    simp only [Holdings.known, Multiset.card_cons]
    omega
  | trans _ _ first second => omega

theorem conserved (trade : Trade before after) (conserved : before.Conserved) :
    after.Conserved := by
  refine (trade.exclusive conserved.exclusive).conserved ?_
  have same := trade.known_add
  have all := conserved.known_eq
  omega

end Trade

namespace LossyTrade

theorem exclusive (trade : LossyTrade before after) (exclusive : before.Exclusive) :
    after.Exclusive := by
  obtain ⟨kept, traded, forgets⟩ := trade
  have bound := traded.exclusive exclusive
  unfold Holdings.Exclusive at bound ⊢
  rw [forgets.acquired, forgets.released]
  exact (Multiset.add_le_add_right forgets.held).trans bound

/-- What is lost stays lost. -/
theorem not_conserved (trade : LossyTrade before after) (exclusive : before.Exclusive)
    (lost : ¬ before.Conserved) : ¬ after.Conserved := by
  intro conserved
  obtain ⟨kept, traded, forgets⟩ := trade
  have same := traded.known_add
  have all := conserved.known_eq
  have fewer := Multiset.card_le_card forgets.held
  refine lost (exclusive.conserved ?_)
  rw [Holdings.known, forgets.released] at all
  rw [Holdings.known] at same
  have count := forgets.acquired
  omega

/-- Where everything is conserved, nothing was forgotten. -/
theorem card_le_of_conserved {kept : Holdings} (traded : Trade before kept)
    (forgets : Forgets kept after) (conserved : before.Conserved) (still : after.Conserved) :
    kept.held.card ≤ after.held.card := by
  have all := still.known_eq
  have known := (traded.conserved conserved).known_eq
  rw [Holdings.known, forgets.released, forgets.acquired] at all
  rw [Holdings.known] at known
  omega

end LossyTrade

section Runs

variable {State Action : Type*} {step : State → Action → Option State} {start s t : State}
  {holdings : State → Holdings}

theorem exclusive_of_leads
    (lossy : ∀ s action t, step s action = some t → LossyTrade (holdings s) (holdings t))
    (initial : (holdings start).Exclusive) (reached : Leads step start s) :
    (holdings s).Exclusive :=
  Reaches.invariant (fun s => (holdings s).Exclusive) initial
    (fun s action t exclusive _ taken => (lossy s action t taken).exclusive exclusive) reached

theorem not_conserved_of_leads
    (lossy : ∀ s action t, step s action = some t → LossyTrade (holdings s) (holdings t))
    (exclusive : (holdings s).Exclusive) (lost : ¬ (holdings s).Conserved)
    (reached : Leads step s t) : ¬ (holdings t).Conserved := by
  have both : (holdings t).Exclusive ∧ ¬ (holdings t).Conserved :=
    Reaches.invariant (fun s => (holdings s).Exclusive ∧ ¬ (holdings s).Conserved)
      ⟨exclusive, lost⟩
      (fun s action t before _ taken =>
        ⟨(lossy s action t taken).exclusive before.1,
          (lossy s action t taken).not_conserved before.1 before.2⟩) reached
  exact both.2

end Runs

end Machine
