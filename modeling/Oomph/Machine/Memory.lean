import Mathlib.Data.List.Basic
import Mathlib.Data.List.Count
import Mathlib.Data.Multiset.ZeroCons

namespace Machine

/-! A provider lends pieces of memory and may lend the same piece again once it was given
back.  The log says, newest event first, which piece was lent to whom, who used it and who
gave it back.  It is lawful when every use and every return is made by the one who has the
piece at that moment, so that a stale pointer to a piece lent again is a violation too.
-/

inductive Lease (Piece Owner : Type)
  | lent (piece : Piece) (owner : Owner)
  | used (piece : Piece) (owner : Owner)
  | freed (piece : Piece) (owner : Owner)
deriving DecidableEq, Repr

namespace Lease

variable {Piece Owner : Type} [DecidableEq Piece]

def holder : List (Lease Piece Owner) → Piece → Option Owner
  | [], _ => none
  | .lent given owner :: rest, piece => if given = piece then some owner else holder rest piece
  | .used _ _ :: rest, piece => holder rest piece
  | .freed given _ :: rest, piece => if given = piece then none else holder rest piece

def Lawful : List (Lease Piece Owner) → Prop
  | [] => True
  | .lent piece _ :: rest => holder rest piece = none ∧ Lawful rest
  | .used piece owner :: rest => holder rest piece = some owner ∧ Lawful rest
  | .freed piece owner :: rest => holder rest piece = some owner ∧ Lawful rest

variable {log : List (Lease Piece Owner)} {piece other : Piece} {owner : Owner}

@[simp] theorem holder_lent : holder (.lent piece owner :: log) piece = some owner := by
  simp [holder]

theorem holder_lent_of_ne (different : piece ≠ other) :
    holder (.lent piece owner :: log) other = holder log other := by
  simp [holder, different]

@[simp] theorem holder_used : holder (.used piece owner :: log) other = holder log other := rfl

@[simp] theorem holder_freed : holder (.freed piece owner :: log) piece = none := by
  simp [holder]

theorem holder_freed_of_ne (different : piece ≠ other) :
    holder (.freed piece owner :: log) other = holder log other := by
  simp [holder, different]

theorem holder_freed_of_holder {another : Owner} (held : holder log piece = some owner)
    (kept : holder log other = some another) (different : another ≠ owner) :
    holder (.freed piece owner :: log) other = some another := by
  rw [holder_freed_of_ne, kept]
  rintro rfl
  rw [held] at kept
  exact different (Option.some.inj kept).symm

theorem holder_lent_of_holder {another : Owner} (free : holder log piece = none)
    (kept : holder log other = some another) :
    holder (.lent piece owner :: log) other = some another := by
  rw [holder_lent_of_ne, kept]
  rintro rfl
  rw [free] at kept
  cases kept

structure Ledger (log : List (Lease Piece Owner)) (lent : List Piece) : Prop where
  lawful : Lawful log
  nodup : lent.Nodup
  mem : ∀ piece, piece ∈ lent ↔ (holder log piece).isSome = true

namespace Ledger

variable {lent : List Piece}

theorem free_of_not_mem (ledger : Ledger log lent) (free : piece ∉ lent) :
    holder log piece = none := by
  rw [ledger.mem] at free
  simpa using free

theorem mem_of_holder (ledger : Ledger log lent) (held : holder log piece = some owner) :
    piece ∈ lent := by
  rw [ledger.mem, held]
  rfl

theorem lend (ledger : Ledger log lent) (owner : Owner) (free : piece ∉ lent) :
    Ledger (.lent piece owner :: log) (piece :: lent) where
  lawful := ⟨ledger.free_of_not_mem free, ledger.lawful⟩
  nodup := List.nodup_cons.mpr ⟨free, ledger.nodup⟩
  mem other := by
    by_cases here : piece = other
    · subst here
      simp
    · simp [holder_lent_of_ne here, ledger.mem, Ne.symm here]

theorem use (ledger : Ledger log lent) (held : holder log piece = some owner) :
    Ledger (.used piece owner :: log) lent where
  lawful := ⟨held, ledger.lawful⟩
  nodup := ledger.nodup
  mem := ledger.mem

theorem free (ledger : Ledger log lent) (held : holder log piece = some owner) :
    Ledger (.freed piece owner :: log) (lent.erase piece) where
  lawful := ⟨held, ledger.lawful⟩
  nodup := ledger.nodup.erase piece
  mem other := by
    rw [ledger.nodup.mem_erase_iff]
    by_cases here : piece = other
    · subst here
      simp
    · simp [holder_freed_of_ne here, ledger.mem, Ne.symm here]

end Ledger

variable {Token : Type} {leases : List (Lease Piece (Option Token))} {token : Token}
  {pieceOf : Token → Option Piece} {tokens : Multiset Token}

def Kept (leases : List (Lease Piece (Option Token))) (pieceOf : Token → Option Piece)
    (tokens : Multiset Token) : Prop :=
  ∀ token ∈ tokens, ∃ piece, pieceOf token = some piece ∧ holder leases piece = some (some token)

namespace Kept

theorem holder (kept : Kept leases pieceOf tokens) (member : token ∈ tokens)
    (known : pieceOf token = some piece) : holder leases piece = some (some token) := by
  obtain ⟨other, here, held⟩ := kept token member
  rw [known] at here
  cases here
  exact held

theorem mono {fewer : Multiset Token} (kept : Kept leases pieceOf tokens) (within : fewer ⊆ tokens) :
    Kept leases pieceOf fewer :=
  fun token member => kept token (within member)

theorem use (kept : Kept leases pieceOf tokens) (piece : Piece) (owner : Option Token) :
    Kept (.used piece owner :: leases) pieceOf tokens := kept

theorem lend (kept : Kept leases pieceOf tokens) (owner : Option Token)
    (free : Lease.holder leases piece = none) :
    Kept (.lent piece owner :: leases) pieceOf tokens := by
  intro token member
  obtain ⟨other, known, held⟩ := kept token member
  exact ⟨other, known, holder_lent_of_holder free held⟩

theorem free (kept : Kept leases pieceOf tokens) {owner : Option Token}
    (held : Lease.holder leases piece = some owner) (gone : ∀ token ∈ tokens, owner ≠ some token) :
    Kept (.freed piece owner :: leases) pieceOf tokens := by
  intro token member
  obtain ⟨other, known, kept⟩ := kept token member
  exact ⟨other, known, holder_freed_of_holder held kept (gone token member).symm⟩

theorem cons (kept : Kept leases pieceOf tokens) (known : pieceOf token = some piece)
    (held : Lease.holder leases piece = some (some token)) :
    Kept leases pieceOf (token ::ₘ tokens) := by
  intro other member
  rcases Multiset.mem_cons.mp member with rfl | old
  · exact ⟨piece, known, held⟩
  · exact kept other old

theorem ne (kept : Kept leases pieceOf tokens) {other : Token} {another : Piece}
    (first : token ∈ tokens) (second : other ∈ tokens) (known : pieceOf token = some piece)
    (same : pieceOf other = some another) (different : token ≠ other) : piece ≠ another := by
  rintro rfl
  have held := kept.holder first known
  rw [kept.holder second same] at held
  exact different (Option.some.inj (Option.some.inj held)).symm

theorem congr {learned : Token → Option Piece} (kept : Kept leases pieceOf tokens)
    (same : ∀ token ∈ tokens, learned token = pieceOf token) : Kept leases learned tokens := by
  intro token member
  rw [same token member]
  exact kept token member

end Kept

variable [DecidableEq Owner]

/-- In a lawful log a piece is given back by its owner once for every time it was lent to
that owner, except while the owner still has it. -/
theorem Lawful.count (lawful : Lawful log) (piece : Piece) (owner : Owner) :
    log.count (.lent piece owner) = log.count (.freed piece owner) +
      if holder log piece = some owner then 1 else 0 := by
  induction log with
  | nil => simp [holder]
  | cons event rest ih =>
    cases event with
    | used other user =>
      have lent : used other user ≠ lent piece owner := nofun
      have freed : used other user ≠ freed piece owner := nofun
      rw [List.count_cons_of_ne lent, List.count_cons_of_ne freed]
      exact ih lawful.2
    | lent other user =>
      obtain ⟨free, lawful⟩ := lawful
      have same := ih lawful
      by_cases here : other = piece
      · subst here
        rw [free] at same
        by_cases mine : user = owner
        · subst mine
          simpa [List.count_cons] using same
        · simpa [List.count_cons, mine] using same
      · simpa [List.count_cons, here, holder_lent_of_ne here] using same
    | freed other user =>
      obtain ⟨held, lawful⟩ := lawful
      have same := ih lawful
      by_cases here : other = piece
      · subst here
        rw [held] at same
        by_cases mine : user = owner
        · subst mine
          simpa [List.count_cons] using same
        · simpa [List.count_cons, mine] using same
      · simpa [List.count_cons, here, holder_freed_of_ne here] using same

end Lease

/-! A buffer is a list of cells of fixed length.  `write` puts cells at an offset and `read`
takes cells from one; both are meant for accesses inside the buffer.  A buffer that is made
of blocks of one width is accessed block by block.
-/

variable {Cell : Type*}

def write (buffer : List Cell) (offset : Nat) (cells : List Cell) : List Cell :=
  buffer.take offset ++ cells ++ buffer.drop (offset + cells.length)

def read (buffer : List Cell) (offset count : Nat) : List Cell :=
  (buffer.drop offset).take count

theorem write_replicate_zero {value : Cell} {count : Nat} {cells : List Cell} :
    write (List.replicate count value) 0 cells =
      cells ++ List.replicate (count - cells.length) value := by
  simp [write]

section Blocks

variable {blocks : List (List Cell)} {width : Nat}

theorem length_flatten_blocks (even : ∀ block ∈ blocks, block.length = width) :
    blocks.flatten.length = blocks.length * width := by
  rw [List.length_flatten, List.map_congr_left even, List.map_const',
    List.sum_replicate_nat]

theorem flatten_split {i : Nat} (inside : i < blocks.length) :
    blocks.flatten =
      (blocks.take i).flatten ++ (blocks[i] ++ (blocks.drop (i + 1)).flatten) := by
  conv_lhs => rw [← List.take_append_drop i blocks, List.drop_eq_getElem_cons inside]
  rw [List.flatten_append, List.flatten_cons]

theorem length_front (even : ∀ block ∈ blocks, block.length = width) {i : Nat}
    (inside : i ≤ blocks.length) : (blocks.take i).flatten.length = i * width := by
  rw [length_flatten_blocks fun block member => even block (List.mem_of_mem_take member),
    List.length_take, Nat.min_eq_left inside]

theorem read_flatten (even : ∀ block ∈ blocks, block.length = width) {i : Nat}
    (inside : i < blocks.length) : read blocks.flatten (i * width) width = blocks[i] := by
  have front := length_front even (Nat.le_of_lt inside)
  have size : blocks[i].length = width := even _ (List.getElem_mem inside)
  rw [read, flatten_split inside, ← front, List.drop_left, ← size, List.take_left]

theorem write_flatten (even : ∀ block ∈ blocks, block.length = width) {i : Nat}
    {block : List Cell} (inside : i < blocks.length) (size : block.length = width) :
    write blocks.flatten (i * width) block = (blocks.set i block).flatten := by
  have front := length_front even (Nat.le_of_lt inside)
  have oldSize : blocks[i].length = width := even _ (List.getElem_mem inside)
  rw [write, flatten_split inside, List.set_eq_take_append_cons_drop, if_pos inside,
    List.flatten_append, List.flatten_cons, List.append_assoc, ← front, List.take_left,
    ← List.drop_drop, List.drop_left, size, ← oldSize, List.drop_left]

end Blocks

end Machine
