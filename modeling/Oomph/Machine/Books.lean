import Mathlib.Data.Finset.Card
import Mathlib.Data.Multiset.Count
import Mathlib.Data.Multiset.Range
import Mathlib.Data.Multiset.Filter
import Mathlib.Algebra.Order.Group.Multiset
import Mathlib.Logic.Relation
import Mathlib.Tactic.Ring

namespace Machine

/-! A token is issued, waits, has its callback started, and the callback returns; a
waiting token may instead be withdrawn.  The books record where every token is and
count the tokens that are still outstanding, under the key its attributes give it.
A system whose queues, call stacks and transport hand tokens to each other refines
these books when each of its steps is at most one entry.
-/

structure Books (Attr Key : Type) where
  attrs : List Attr
  waiting : Multiset Nat
  running : Multiset Nat
  called : Multiset Nat
  returned : Multiset Nat
  withdrawn : Multiset Nat
  outstanding : Key → Int

namespace Books

variable {Attr Key : Type}

def keyOf (key : Attr → Option Key) (attrs : List Attr) (token : Nat) : Option Key :=
  attrs[token]?.bind key

theorem keyOf_append_of_lt {key : Attr → Option Key} {token : Nat} (attrs more : List Attr)
    (inside : token < attrs.length) :
    keyOf key (attrs ++ more) token = keyOf key attrs token := by
  rw [keyOf, List.getElem?_append_left inside, keyOf]

theorem keyOf_append_length {key : Attr → Option Key} (attrs : List Attr) (attr : Attr) :
    keyOf key (attrs ++ [attr]) attrs.length = key attr := by
  simp [keyOf]

variable [DecidableEq Key]

def adjust (outstanding : Key → Int) (amount : Int) : Option Key → Key → Int
  | none => outstanding
  | some counted => Function.update outstanding counted (outstanding counted + amount)

inductive Entry (key : Attr → Option Key) (before after : Books Attr Key) : Prop
  | issue (attr : Attr) :
      after.attrs = before.attrs ++ [attr] →
      after.waiting = before.attrs.length ::ₘ before.waiting →
      after.running = before.running → after.called = before.called →
      after.returned = before.returned → after.withdrawn = before.withdrawn →
      after.outstanding = adjust before.outstanding 1 (key attr) → Entry key before after
  | issueRunning (attr : Attr) :
      after.attrs = before.attrs ++ [attr] →
      after.waiting = before.waiting →
      after.running = before.attrs.length ::ₘ before.running →
      after.called = before.attrs.length ::ₘ before.called →
      after.returned = before.returned → after.withdrawn = before.withdrawn →
      after.outstanding = adjust before.outstanding 1 (key attr) → Entry key before after
  | start (token : Nat) :
      after.attrs = before.attrs →
      before.waiting = token ::ₘ after.waiting →
      after.running = token ::ₘ before.running → after.called = token ::ₘ before.called →
      after.returned = before.returned → after.withdrawn = before.withdrawn →
      after.outstanding = before.outstanding → Entry key before after
  | finish (token : Nat) :
      after.attrs = before.attrs →
      after.waiting = before.waiting →
      before.running = token ::ₘ after.running → after.called = before.called →
      after.returned = token ::ₘ before.returned → after.withdrawn = before.withdrawn →
      after.outstanding =
        adjust before.outstanding (-1) (keyOf key before.attrs token) → Entry key before after
  | withdraw (token : Nat) :
      after.attrs = before.attrs →
      before.waiting = token ::ₘ after.waiting →
      after.running = before.running → after.called = before.called →
      after.returned = before.returned → after.withdrawn = token ::ₘ before.withdrawn →
      after.outstanding =
        adjust before.outstanding (-1) (keyOf key before.attrs token) → Entry key before after

/-- Every issued token is in exactly one place, every call is running or has
returned, and each counter counts the tokens that wait or run under its key. -/
structure Consistent (key : Attr → Option Key) (books : Books Attr Key) : Prop where
  placed : books.waiting + books.called + books.withdrawn = Multiset.range books.attrs.length
  calls : books.called = books.running + books.returned
  counted : ∀ counted, books.outstanding counted =
    ((books.waiting + books.running).countP fun token =>
      keyOf key books.attrs token = some counted : Nat)

variable {key : Attr → Option Key} {books before after : Books Attr Key} {token : Nat}

theorem adjust_apply (outstanding : Key → Int) (amount : Int) (changed : Option Key)
    (counted : Key) : adjust outstanding amount changed counted =
      outstanding counted + if changed = some counted then amount else 0 := by
  cases changed with
  | none => simp [adjust]
  | some other =>
    by_cases same : other = counted
    · subst other; simp [adjust]
    · simp [adjust, same, Function.update_of_ne (Ne.symm same)]

namespace Consistent

theorem mem_placed (consistent : Consistent key books) :
    token < books.attrs.length ↔
      token ∈ books.waiting ∨ token ∈ books.called ∨ token ∈ books.withdrawn := by
  rw [← Multiset.mem_range, ← consistent.placed]
  simp [or_assoc]

theorem placed_nodup (consistent : Consistent key books) :
    (books.waiting + books.called + books.withdrawn).Nodup := by
  rw [consistent.placed]
  exact Multiset.nodup_range _

theorem called_nodup (consistent : Consistent key books) : books.called.Nodup :=
  (Multiset.nodup_add.mp (Multiset.nodup_add.mp consistent.placed_nodup).1).2.1

theorem waiting_nodup (consistent : Consistent key books) : books.waiting.Nodup :=
  (Multiset.nodup_add.mp (Multiset.nodup_add.mp consistent.placed_nodup).1).1

theorem running_nodup (consistent : Consistent key books) : books.running.Nodup := by
  have calls := consistent.called_nodup
  rw [consistent.calls] at calls
  exact (Multiset.nodup_add.mp calls).1

theorem not_called_of_waiting (consistent : Consistent key books)
    (waits : token ∈ books.waiting) : token ∉ books.called := by
  have apart := (Multiset.nodup_add.mp (Multiset.nodup_add.mp consistent.placed_nodup).1).2.2
  exact Multiset.disjoint_left.mp apart waits

theorem not_withdrawn_of_waiting (consistent : Consistent key books)
    (waits : token ∈ books.waiting) : token ∉ books.withdrawn := by
  have apart := (Multiset.nodup_add.mp consistent.placed_nodup).2.2
  exact Multiset.disjoint_left.mp apart (Multiset.mem_add.mpr (.inl waits))

theorem not_withdrawn_of_called (consistent : Consistent key books)
    (called : token ∈ books.called) : token ∉ books.withdrawn := by
  have apart := (Multiset.nodup_add.mp consistent.placed_nodup).2.2
  exact Multiset.disjoint_left.mp apart (Multiset.mem_add.mpr (.inr called))

theorem not_returned_of_running (consistent : Consistent key books)
    (runs : token ∈ books.running) : token ∉ books.returned := by
  have calls := consistent.called_nodup
  rw [consistent.calls] at calls
  exact Multiset.disjoint_left.mp (Multiset.nodup_add.mp calls).2.2 runs

theorem called_of_running (consistent : Consistent key books)
    (runs : token ∈ books.running) : token ∈ books.called := by
  rw [consistent.calls]
  exact Multiset.mem_add.mpr (.inl runs)

theorem called_of_returned (consistent : Consistent key books)
    (returned : token ∈ books.returned) : token ∈ books.called := by
  rw [consistent.calls]
  exact Multiset.mem_add.mpr (.inr returned)

theorem lt_of_waiting (consistent : Consistent key books) (waits : token ∈ books.waiting) :
    token < books.attrs.length :=
  consistent.mem_placed.mpr (.inl waits)

theorem lt_of_called (consistent : Consistent key books) (called : token ∈ books.called) :
    token < books.attrs.length :=
  consistent.mem_placed.mpr (.inr (.inl called))

theorem mem_outstanding (consistent : Consistent key books) :
    token ∈ books.waiting + books.running ↔
      token < books.attrs.length ∧ token ∉ books.returned ∧ token ∉ books.withdrawn := by
  constructor
  · intro member
    rcases Multiset.mem_add.mp member with waits | runs
    · refine ⟨consistent.lt_of_waiting waits, fun returned => ?_,
        consistent.not_withdrawn_of_waiting waits⟩
      exact consistent.not_called_of_waiting waits (consistent.called_of_returned returned)
    · have called := consistent.called_of_running runs
      exact ⟨consistent.lt_of_called called, consistent.not_returned_of_running runs,
        consistent.not_withdrawn_of_called called⟩
  · rintro ⟨issued, notReturned, notWithdrawn⟩
    rcases consistent.mem_placed.mp issued with waits | called | withdrawn
    · exact Multiset.mem_add.mpr (.inl waits)
    · rw [consistent.calls] at called
      rcases Multiset.mem_add.mp called with runs | returned
      · exact Multiset.mem_add.mpr (.inr runs)
      · exact absurd returned notReturned
    · exact absurd withdrawn notWithdrawn

theorem outstanding_nodup (consistent : Consistent key books) :
    (books.waiting + books.running).Nodup := by
  refine Multiset.nodup_add.mpr ⟨consistent.waiting_nodup, consistent.running_nodup, ?_⟩
  apply Multiset.disjoint_left.mpr
  intro token waits runs
  exact consistent.not_called_of_waiting waits (consistent.called_of_running runs)

/-- A counter is the number of issued tokens under its key whose callback has
neither returned nor been withdrawn. -/
theorem outstanding_eq_card (consistent : Consistent key books) (counted : Key) :
    books.outstanding counted = (((Finset.range books.attrs.length).filter fun token =>
      keyOf key books.attrs token = some counted ∧
        token ∉ books.returned ∧ token ∉ books.withdrawn).card : Nat) := by
  rw [consistent.counted, Multiset.countP_eq_card_filter, Finset.card_def]
  congr 2
  apply Multiset.Nodup.ext (consistent.outstanding_nodup.filter _) (Finset.nodup _) |>.mpr
  intro token
  rw [Multiset.mem_filter, consistent.mem_outstanding, Finset.mem_val, Finset.mem_filter,
    Finset.mem_range]
  tauto

/-- A counter is zero exactly when every token under its key is done. -/
theorem outstanding_eq_zero_iff (consistent : Consistent key books) {counted : Key} :
    books.outstanding counted = 0 ↔ ∀ token, keyOf key books.attrs token = some counted →
      token ∈ books.returned ∨ token ∈ books.withdrawn := by
  rw [consistent.counted, Int.natCast_eq_zero, Multiset.countP_eq_zero]
  refine forall_congr' fun token => ?_
  have issued : keyOf key books.attrs token = some counted → token < books.attrs.length := by
    intro keyed
    obtain ⟨attr, found, -⟩ := Option.bind_eq_some_iff.mp keyed
    exact (List.getElem?_eq_some_iff.mp found).1
  rw [consistent.mem_outstanding]
  tauto

theorem countP_fresh (consistent : Consistent key books) (attr : Attr) (counted : Key) :
    ((books.waiting + books.running).countP fun token =>
      keyOf key (books.attrs ++ [attr]) token = some counted) =
    (books.waiting + books.running).countP fun token =>
      keyOf key books.attrs token = some counted := by
  refine Multiset.countP_congr rfl fun token member => ?_
  rw [keyOf_append_of_lt _ _ (consistent.mem_outstanding.mp member).1]

theorem entry (consistent : Consistent key before) (entered : Entry key before after) :
    Consistent key after := by
  cases entered with
  | issue attr attrs waiting running called returned withdrawn outstanding =>
    refine ⟨?_, ?_, fun counted => ?_⟩
    · rw [waiting, called, withdrawn, attrs, List.length_append, List.length_singleton,
        Multiset.range_succ, ← consistent.placed, Multiset.cons_add, Multiset.cons_add]
    · rw [called, running, returned, consistent.calls]
    · rw [outstanding, adjust_apply, waiting, running, attrs, Multiset.cons_add,
        Multiset.countP_cons, consistent.countP_fresh, consistent.counted, keyOf_append_length]
      split <;> simp
  | issueRunning attr attrs waiting running called returned withdrawn outstanding =>
    refine ⟨?_, ?_, fun counted => ?_⟩
    · rw [waiting, called, withdrawn, attrs, List.length_append, List.length_singleton,
        Multiset.range_succ, ← consistent.placed, Multiset.add_cons, Multiset.cons_add]
    · rw [called, running, returned, consistent.calls, Multiset.cons_add]
    · rw [outstanding, adjust_apply, waiting, running, attrs, Multiset.add_cons,
        Multiset.countP_cons, consistent.countP_fresh, consistent.counted, keyOf_append_length]
      split <;> simp
  | start token attrs waiting running called returned withdrawn outstanding =>
    refine ⟨?_, ?_, fun counted => ?_⟩
    · rw [called, withdrawn, attrs, ← consistent.placed, waiting]
      simp only [Multiset.add_cons, Multiset.cons_add]
    · rw [called, running, returned, consistent.calls, Multiset.cons_add]
    · rw [outstanding, consistent.counted, running, waiting, attrs, Multiset.add_cons,
        Multiset.cons_add]
  | finish token attrs waiting running called returned withdrawn outstanding =>
    refine ⟨?_, ?_, fun counted => ?_⟩
    · rw [waiting, called, withdrawn, attrs, consistent.placed]
    · rw [called, returned, consistent.calls, running, Multiset.add_cons, Multiset.cons_add]
    · rw [outstanding, adjust_apply, consistent.counted, waiting, running, attrs,
        Multiset.add_cons, Multiset.countP_cons]
      split <;> push_cast <;> ring
  | withdraw token attrs waiting running called returned withdrawn outstanding =>
    refine ⟨?_, ?_, fun counted => ?_⟩
    · rw [called, withdrawn, attrs, ← consistent.placed, waiting, Multiset.add_cons,
        Multiset.cons_add, Multiset.cons_add]
    · rw [called, running, returned, consistent.calls]
    · rw [outstanding, adjust_apply, consistent.counted, running, waiting, attrs,
        Multiset.cons_add, Multiset.countP_cons]
      split <;> push_cast <;> ring

theorem entries (consistent : Consistent key before)
    (entered : Relation.ReflGen (Entry key) before after) : Consistent key after := by
  cases entered with
  | refl => exact consistent
  | single entered => exact consistent.entry entered

end Consistent

theorem called_of_entries (entered : Relation.ReflGen (Entry key) before after)
    (member : token ∈ before.called) : token ∈ after.called := by
  cases entered with
  | refl => exact member
  | single entered =>
    cases entered with
    | issue attr _ _ _ called => rwa [called]
    | issueRunning attr _ _ _ called =>
      rw [called]
      exact Multiset.mem_cons_of_mem member
    | start other _ _ _ called =>
      rw [called]
      exact Multiset.mem_cons_of_mem member
    | finish other _ _ _ called => rwa [called]
    | withdraw other _ _ _ called => rwa [called]

theorem returned_of_entries (entered : Relation.ReflGen (Entry key) before after)
    (member : token ∈ before.returned) : token ∈ after.returned := by
  cases entered with
  | refl => exact member
  | single entered =>
    cases entered with
    | issue attr _ _ _ _ returned => rwa [returned]
    | issueRunning attr _ _ _ _ returned => rwa [returned]
    | start other _ _ _ _ returned => rwa [returned]
    | finish other _ _ _ _ returned =>
      rw [returned]
      exact Multiset.mem_cons_of_mem member
    | withdraw other _ _ _ _ returned => rwa [returned]

theorem withdrawn_of_entries (entered : Relation.ReflGen (Entry key) before after)
    (member : token ∈ before.withdrawn) : token ∈ after.withdrawn := by
  cases entered with
  | refl => exact member
  | single entered =>
    cases entered with
    | issue attr _ _ _ _ _ withdrawn => rwa [withdrawn]
    | issueRunning attr _ _ _ _ _ withdrawn => rwa [withdrawn]
    | start other _ _ _ _ _ withdrawn => rwa [withdrawn]
    | finish other _ _ _ _ _ withdrawn => rwa [withdrawn]
    | withdraw other _ _ _ _ _ withdrawn =>
      rw [withdrawn]
      exact Multiset.mem_cons_of_mem member

theorem attrs_of_entries (entered : Relation.ReflGen (Entry key) before after) :
    before.attrs <+: after.attrs := by
  cases entered with
  | refl => exact List.prefix_refl _
  | single entered =>
    cases entered with
    | issue attr attrs => exact ⟨[attr], attrs.symm⟩
    | issueRunning attr attrs => exact ⟨[attr], attrs.symm⟩
    | start other attrs => rw [attrs]
    | finish other attrs => rw [attrs]
    | withdraw other attrs => rw [attrs]

end Books

end Machine
