import Oomph.Request
import Mathlib.Data.Nat.Bitwise

namespace Oomph.Libfabric

def makeTag64 (tag : UInt32) (ctxt : UInt64) : UInt64 :=
  ((ctxt &&& 0x0000000000FFFFFF) <<< 24) ||| (tag.toUInt64 &&& 0x0000000000FFFFFF)

/-- The tag that `send`, `recv` and `shared_recv` pass on: a `tag_type` converts to the
unsigned parameter. -/
def stag (tag : TagType) (ctxt : UInt64) : UInt64 :=
  makeTag64 tag.toUInt32 ctxt

theorem makeTag64_toNat (tag : UInt32) (ctxt : UInt64) :
    (makeTag64 tag ctxt).toNat = ctxt.toNat % 2 ^ 24 * 2 ^ 24 + tag.toNat % 2 ^ 24 := by
  have mask : (0x0000000000FFFFFF : UInt64).toNat = 2 ^ 24 - 1 := rfl
  have shift : (24 : UInt64).toNat % 64 = 24 := rfl
  have low : tag.toNat % 2 ^ 24 < 2 ^ 24 := Nat.mod_lt _ (by decide)
  have high : ctxt.toNat % 2 ^ 24 * 2 ^ 24 < 2 ^ 64 := by
    have bound : ctxt.toNat % 2 ^ 24 < 2 ^ 24 := Nat.mod_lt _ (by decide)
    omega
  rw [makeTag64, UInt64.toNat_or, UInt64.toNat_shiftLeft, UInt64.toNat_and, UInt64.toNat_and,
    UInt32.toNat_toUInt64, mask, shift, Nat.and_two_pow_sub_one_eq_mod,
    Nat.and_two_pow_sub_one_eq_mod, Nat.shiftLeft_eq, Nat.mod_eq_of_lt high,
    ← Nat.shiftLeft_eq, ← Nat.shiftLeft_add_eq_or_of_lt low, Nat.shiftLeft_eq]

/-- Two tags are the same when both fields agree in their low 24 bits. -/
theorem stag_eq_iff {t₁ t₂ : TagType} {c₁ c₂ : UInt64} :
    stag t₁ c₁ = stag t₂ c₂ ↔
      t₁.toUInt32.toNat % 2 ^ 24 = t₂.toUInt32.toNat % 2 ^ 24 ∧
        c₁.toNat % 2 ^ 24 = c₂.toNat % 2 ^ 24 := by
  rw [stag, stag, ← UInt64.toNat_inj, makeTag64_toNat, makeTag64_toNat]
  have first : t₁.toUInt32.toNat % 2 ^ 24 < 2 ^ 24 := Nat.mod_lt _ (by decide)
  have second : t₂.toUInt32.toNat % 2 ^ 24 < 2 ^ 24 := Nat.mod_lt _ (by decide)
  omega

/-- The encoding tells two pairs of tag and context apart exactly when they differ in the
low 24 bits of the tag or of the context. -/
theorem stag_separates_iff (t₁ t₂ : TagType) (c₁ c₂ : UInt64) :
    (stag t₁ c₁ = stag t₂ c₂ ↔ t₁ = t₂ ∧ c₁ = c₂) ↔
      t₁ = t₂ ∧ c₁ = c₂ ∨
        t₁.toUInt32.toNat % 2 ^ 24 ≠ t₂.toUInt32.toNat % 2 ^ 24 ∨
        c₁.toNat % 2 ^ 24 ≠ c₂.toNat % 2 ^ 24 := by
  rw [stag_eq_iff]
  constructor
  · intro separates
    by_cases same : t₁ = t₂ ∧ c₁ = c₂
    · exact .inl same
    · have differ := mt separates.mp same
      rw [not_and_or] at differ
      exact .inr differ
  · intro condition
    constructor
    · intro low
      rcases condition with same | tags | contexts
      · exact same
      · exact absurd low.1 tags
      · exact absurd low.2 contexts
    · intro same
      rw [same.1, same.2]
      exact ⟨rfl, rfl⟩

/-- A tag within 32 bits that the encoding confuses with another one, and two contexts
it confuses for the same tag. -/
theorem stag_confuses :
    stag 7 0x7f00a0000010 = stag 0x1000007 0x7f00a0000010 ∧ (7 : TagType) ≠ 0x1000007 ∧
      stag 7 0x7f00a0000010 = stag 7 0x7f00a1000010 ∧
      (0x7f00a0000010 : UInt64) ≠ 0x7f00a1000010 := by
  decide

end Oomph.Libfabric
