import MarkSweep.TypeLayout

set_option autoImplicit false

namespace MarkSweep

namespace Word

/-- How many bits below the lowest set bit are clear; all 64 if none is set. -/
def trailingZeros (w : UInt64) : Nat := (clearFrom? (~~~w) 0).getD 64

def withoutLowest (w : UInt64) : UInt64 := w &&& (w - 1)

theorem toNat_sub_one {w : UInt64} (some_set : w ≠ 0) : (w - 1).toNat = w.toNat - 1 := by
  have positive : 1 ≤ w := by
    have nonzero : w.toNat ≠ 0 := fun h => some_set (UInt64.toNat_inj.1 h)
    exact UInt64.le_iff_toNat_le.2 (Nat.pos_of_ne_zero nonzero)
  exact UInt64.toNat_sub_of_le w 1 positive

theorem withoutLowest_lt {w : UInt64} (some_set : w ≠ 0) :
    (withoutLowest w).toNat < w.toNat := by
  have nonzero : w.toNat ≠ 0 := fun h => some_set (UInt64.toNat_inj.1 h)
  have below : (withoutLowest w).toNat ≤ (w - 1).toNat := by
    rw [withoutLowest, UInt64.toNat_and]
    exact Nat.and_le_right
  rw [toNat_sub_one some_set] at below
  omega

def setBits (w : UInt64) : List Nat :=
  if w = 0 then [] else trailingZeros w :: setBits (withoutLowest w)
termination_by w.toNat
decreasing_by exact withoutLowest_lt ‹_›

end Word

/-- The entries that are set in the words of a bitmap. Bits behind the last entry count too. -/
def Bitmap.setBits (b : Bitmap) : List Nat :=
  b.words.toList.zipIdx.flatMap fun w => (Word.setBits w.1).map (w.2 * 64 + ·)

/-- The words with references in a block of so many words, as a scan comes upon them. -/
def TypeLayout.scanOrder (t : TypeLayout) (blockWords : UInt64) : List UInt64 :=
  (t.pointerMap.setBits.map fun i => UInt64.ofNat i + UInt64.ofNat t.mapOffset).takeWhile
    (· < blockWords)

end MarkSweep
