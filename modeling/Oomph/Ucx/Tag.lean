import Oomph.Request
import Mathlib.Tactic.Common

namespace Oomph.Ucx

def tagBits : UInt64 := 32

def anySourceMask : UInt64 := 0x0000000000000000

def specificSourceMask : UInt64 := 0x00000000ffffffff

def tagMask : UInt64 := 0xffffffff00000000

def anySource : RankType := -1

/-- The conversion of an `int` to `std::uint_fast64_t`. -/
def toFast64 (value : Int32) : UInt64 := value.toInt64.toUInt64

def stag (rank : RankType) (tag : TagType) : UInt64 :=
  (toFast64 tag <<< tagBits) ||| toFast64 rank

structure TagRecv where
  rtag : UInt64
  rtagMask : UInt64
deriving DecidableEq, Repr

def postedTags (src : RankType) (tag : TagType) : TagRecv where
  rtag :=
    if anySource = src then toFast64 tag <<< tagBits
    else (toFast64 tag <<< tagBits) ||| toFast64 src
  rtagMask :=
    if anySource = src then tagMask ||| anySourceMask else tagMask ||| specificSourceMask

def recvTags (src : RankType) (tag : TagType) : TagRecv := postedTags src tag

def sharedRecvTags (src : RankType) (tag : TagType) : TagRecv := postedTags src tag

def TagRecv.accepts (posted : TagRecv) (stag : UInt64) : Bool :=
  stag &&& posted.rtagMask == posted.rtag &&& posted.rtagMask

theorem toFast64_shiftLeft (tag : TagType) :
    (toFast64 tag <<< tagBits).toBitVec = tag.toBitVec ++ 0#32 := by
  have shift : tagBits.toBitVec % 64 = 32#64 := rfl
  rw [UInt64.toBitVec_shiftLeft, shift, toFast64, Int64.toBitVec_toUInt64,
    Int32.toBitVec_toInt64]
  ext i inside
  simp only [BitVec.getElem_shiftLeft']
  grind

theorem toFast64_of_nonneg {rank : RankType} (ranked : 0 ≤ rank) :
    (toFast64 rank).toBitVec = 0#32 ++ rank.toBitVec := by
  have positive : rank.toBitVec.msb = false := by
    have value := Int32.le_iff_toInt_le.mp ranked
    rw [BitVec.msb_eq_toInt, Int32.toInt_toBitVec]
    simpa using value
  rw [toFast64, Int64.toBitVec_toUInt64, Int32.toBitVec_toInt64,
    BitVec.signExtend_eq_setWidth_of_msb_false positive]
  ext i inside
  simp only [BitVec.getElem_setWidth]
  grind

theorem stag_toBitVec {rank : RankType} (ranked : 0 ≤ rank) (tag : TagType) :
    (stag rank tag).toBitVec = tag.toBitVec ++ rank.toBitVec := by
  rw [stag, UInt64.toBitVec_or, toFast64_shiftLeft, toFast64_of_nonneg ranked, BitVec.or_append,
    BitVec.or_zero, BitVec.zero_or]

theorem append_inj_iff {high low high' low' : BitVec 32} :
    high ++ low = high' ++ low' ↔ high = high' ∧ low = low' := by
  constructor
  · intro same
    have lower : low = low' := by
      have cut := congrArg (BitVec.setWidth 32) same
      rwa [BitVec.setWidth_append_eq_right, BitVec.setWidth_append_eq_right] at cut
    subst lower
    exact ⟨(BitVec.append_left_inj low).mp same, rfl⟩
  · rintro ⟨rfl, rfl⟩
    rfl

theorem accepts_iff {posted : TagRecv} {stag : UInt64} :
    posted.accepts stag = true ↔
      stag.toBitVec &&& posted.rtagMask.toBitVec =
        posted.rtag.toBitVec &&& posted.rtagMask.toBitVec := by
  rw [TagRecv.accepts, beq_iff_eq, ← UInt64.toBitVec_inj, UInt64.toBitVec_and,
    UInt64.toBitVec_and]

theorem postedTags_anySource_accepts {rank : RankType} (ranked : 0 ≤ rank) (sent tag : TagType) :
    (postedTags anySource tag).accepts (stag rank sent) = true ↔ sent = tag := by
  have mask : (tagMask ||| anySourceMask).toBitVec = BitVec.allOnes 32 ++ 0#32 := by decide
  rw [accepts_iff, postedTags, if_pos rfl, if_pos rfl, stag_toBitVec ranked, toFast64_shiftLeft,
    mask, BitVec.and_append, BitVec.and_append, append_inj_iff, BitVec.and_allOnes,
    BitVec.and_allOnes, BitVec.and_zero, BitVec.and_zero, Int32.toBitVec_inj]
  exact and_iff_left rfl

theorem postedTags_accepts {rank src : RankType} (ranked : 0 ≤ rank) (source : 0 ≤ src)
    (sent tag : TagType) :
    (postedTags src tag).accepts (stag rank sent) = true ↔ sent = tag ∧ rank = src := by
  have specific : anySource ≠ src := by
    rintro rfl
    exact absurd source (by decide)
  have mask : (tagMask ||| specificSourceMask).toBitVec = BitVec.allOnes 64 := by decide
  have rtag := stag_toBitVec source tag
  rw [stag] at rtag
  rw [accepts_iff, postedTags, if_neg specific, if_neg specific, stag_toBitVec ranked, rtag,
    mask, BitVec.and_allOnes, BitVec.and_allOnes, append_inj_iff, Int32.toBitVec_inj,
    Int32.toBitVec_inj]

/-- A message is accepted exactly by the receives with its tag that name its sender or any
source. -/
theorem tags_match_iff (rank : RankType) (sent tag : TagType) (src : RankType)
    (ranked : 0 ≤ rank) (source : src = anySource ∨ 0 ≤ src) :
    ((recvTags src tag).accepts (stag rank sent) = true ↔
        sent = tag ∧ (src = anySource ∨ src = rank)) ∧
      sharedRecvTags src tag = recvTags src tag := by
  refine ⟨?_, rfl⟩
  rcases source with rfl | source
  · rw [recvTags, postedTags_anySource_accepts ranked]
    exact (and_iff_left (.inl rfl)).symm
  · have specific : src ≠ anySource := by
      rintro rfl
      exact absurd source (by decide)
    rw [recvTags, postedTags_accepts ranked source, or_iff_right specific, eq_comm (a := rank)]

/-- A message with tag -3 from the highest rank, and two receives that accept it. -/
theorem tags_match_highest :
    (recvTags anySource (-3)).accepts (stag 0x7fffffff (-3)) = true ∧
      (sharedRecvTags 0x7fffffff (-3)).accepts (stag 0x7fffffff (-3)) = true := by
  have wild := tags_match_iff 0x7fffffff (-3) (-3) anySource (by decide) (.inl rfl)
  have named := tags_match_iff 0x7fffffff (-3) (-3) 0x7fffffff (by decide) (.inr (by decide))
  refine ⟨wild.1.mpr ⟨rfl, .inl rfl⟩, ?_⟩
  rw [named.2]
  exact named.1.mpr ⟨rfl, .inr rfl⟩

end Oomph.Ucx
