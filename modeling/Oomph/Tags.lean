import Mathlib.Algebra.Group.Nat.Defs
import Mathlib.Data.Nat.Size
import Oomph.Ucx.Tag
import Oomph.Libfabric.Matching

namespace Oomph

def anyTag : TagType := -1

/-- The backends that match by tag; `device` and `ctxt` are what the libfabric controller
and the context of the receive contribute. -/
inductive TagBackend
  | ucx
  | libfabric (device : Bool) (ctxt : UInt64)
deriving DecidableEq, Repr

/-- A receive for `src` and `tag` gets the message that `rank` sends with the tag `sent`. -/
def TagBackend.accepts (shared : Bool) (src : RankType) (tag : TagType) (rank : RankType)
    (sent : TagType) : TagBackend → Bool
  | .ucx =>
    (if shared then Ucx.sharedRecvTags src tag else Ucx.recvTags src tag).accepts
      (Ucx.stag rank sent)
  | .libfabric device ctxt =>
    Libfabric.fabricAccepts device ctxt { src, tag } { sender := rank, tag := sent }

theorem ucx_accepts_anyTag {shared : Bool} {rank src : RankType} {sent : TagType}
    (ranked : 0 ≤ rank) (source : src = rank ∨ src = Ucx.anySource) :
    TagBackend.accepts shared src anyTag rank sent .ucx = true ↔ sent = anyTag := by
  have posted : (if shared then Ucx.sharedRecvTags src anyTag else Ucx.recvTags src anyTag) =
      Ucx.postedTags src anyTag := ite_self _
  rw [TagBackend.accepts, posted]
  rcases source with rfl | rfl
  · rw [Ucx.postedTags_accepts ranked ranked]
    exact and_iff_left rfl
  · exact Ucx.postedTags_anySource_accepts ranked sent anyTag

theorem libfabric_accepts_anyTag {shared device : Bool} {ctxt : UInt64} {rank src : RankType}
    {sent : TagType} :
    TagBackend.accepts shared src anyTag rank sent (.libfabric device ctxt) = true ↔
      sent.toUInt32.toNat % 2 ^ 24 = 2 ^ 24 - 1 := by
  have ones : anyTag.toUInt32.toNat % 2 ^ 24 = 2 ^ 24 - 1 := by decide
  rw [TagBackend.accepts, Libfabric.fabricAccepts_iff, Libfabric.stag_eq_iff, ones, eq_comm]
  exact and_iff_left rfl

/-- Among the tags a user can send with, `any_tag` receives none on UCX, and on libfabric
those whose low 24 bits are all ones. -/
theorem any_tag_accepts_iff (backend : TagBackend) (shared : Bool) (rank src : RankType)
    (sent : TagType) (ranked : 0 ≤ rank) (source : src = rank ∨ src = Ucx.anySource)
    (tagged : 0 ≤ sent) :
    backend.accepts shared src anyTag rank sent = true ↔
      backend ≠ .ucx ∧ sent.toUInt32.toNat % 2 ^ 24 = 2 ^ 24 - 1 := by
  cases backend with
  | ucx =>
    have other : sent ≠ anyTag := by
      rintro rfl
      exact absurd tagged (by decide)
    rw [ucx_accepts_anyTag ranked source]
    exact iff_of_false other fun ⟨different, _⟩ => different rfl
  | libfabric device ctxt =>
    rw [libfabric_accepts_anyTag]
    exact (and_iff_right nofun).symm

theorem any_tag_accepts_all_ones :
    TagBackend.accepts false 3 anyTag 3 0xffffff (.libfabric false 0x7f00a0000010) = true :=
  (any_tag_accepts_iff (.libfabric false 0x7f00a0000010) false 3 3 0xffffff (by decide) (.inl rfl)
    (by decide)).mpr ⟨nofun, by decide⟩

/-- A message with tag 7 that a receive with `any_tag` does not get on either backend. -/
theorem any_tag_refuses_seven :
    TagBackend.accepts false Ucx.anySource anyTag 3 7 .ucx = false ∧
      TagBackend.accepts false Ucx.anySource anyTag 3 7 (.libfabric false 0x7f00a0000010) =
        false := by
  decide

end Oomph

namespace Oomph.Mpi

/-- The loop in the constructor of `context_impl`: `m_n_tag_bits`, `tmp` and `mask`. -/
def countBits (bits tmp mask : Nat) : Nat × Nat :=
  if 0 < tmp then countBits (bits + 1) (tmp / 2) (mask * 2) else (bits, mask)

/-- `num_tag_bits`, with the value of `MPI_TAG_UB` if there is one. -/
def numTagBits (tagUb : Option UInt32) : Nat :=
  let maxTag := (tagUb.getD 32767).toNat
  let (bits, mask) := countBits 0 maxTag 1
  if maxTag < mask - 1 then bits - 1 else bits

theorem countBits_eq (bits tmp mask : Nat) :
    countBits bits tmp mask = (bits + tmp.size, mask * 2 ^ tmp.size) := by
  fun_induction countBits with
  | case1 bits tmp mask positive ih =>
    have size := Nat.size_bit (b := tmp.bodd) (n := tmp.div2)
    rw [Nat.bit_bodd_div2, Nat.div2_val] at size
    rw [ih, size (Nat.ne_of_gt positive), Nat.pow_succ']
    simp only [Nat.mul_assoc, Nat.add_assoc, Nat.add_comm 1]
  | case2 bits tmp mask zero =>
    obtain rfl : tmp = 0 := by omega
    simp

/-- So many bits give tags that MPI allows, and more do not. -/
theorem tags_allowed_iff (tagUb : Option UInt32) (bits : Nat) :
    (∀ tag < 2 ^ bits, tag ≤ (tagUb.getD 32767).toNat) ↔ bits ≤ numTagBits tagUb := by
  rw [numTagBits, countBits_eq, Nat.zero_add, Nat.one_mul]
  generalize (tagUb.getD 32767).toNat = maxTag
  have allowed : (∀ tag < 2 ^ bits, tag ≤ maxTag) ↔ 2 ^ bits ≤ maxTag + 1 :=
    ⟨fun all => by have := all (2 ^ bits - 1); omega, fun _ _ _ => by omega⟩
  have small : bits < maxTag.size ↔ 2 ^ bits ≤ maxTag := Nat.lt_size
  have most := Nat.lt_size_self maxTag
  have powers : 2 ^ maxTag.size < 2 ^ bits ↔ _ := Nat.pow_lt_pow_iff_right (by decide)
  rw [allowed]
  dsimp only
  split <;> grind

end Oomph.Mpi
