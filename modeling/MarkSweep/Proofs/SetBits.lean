import Mathlib.Algebra.Group.Nat.Defs
import Mathlib.Data.List.Sort
import Mathlib.Tactic.Common
import MarkSweep.TypeLayout.Enumeration

set_option autoImplicit false

namespace MarkSweep

namespace Word

theorem ne_zero_of_bit {w : UInt64} {i : Nat} (isSet : bit w i = true) : w ≠ 0 := by
  rintro rfl
  simp [bit_zero] at isSet

theorem trailingZeros_spec {w : UInt64} (some_set : w ≠ 0) :
    trailingZeros w < 64 ∧ bit w (trailingZeros w) = true ∧
      ∀ k < trailingZeros w, bit w k = false := by
  unfold trailingZeros
  cases found : clearFrom? (~~~w) 0 with
  | none =>
    refine absurd (ext fun i hi => ?_) some_set
    have above := clearFrom?_eq_none found (Nat.zero_le i) hi
    rw [bit_not w hi] at above
    rw [bit_zero]
    simpa using above
  | some t =>
    obtain ⟨-, bound, here, below⟩ := clearFrom?_eq_some found
    rw [bit_not w bound] at here
    refine ⟨bound, by simpa using here, fun k hk => ?_⟩
    have there := below k (Nat.zero_le k) hk
    rw [bit_not w (Nat.lt_trans hk bound)] at there
    simpa using there

theorem toNat_eq_of_lowest {w : UInt64} {t : Nat} (here : bit w t = true)
    (below : ∀ k < t, bit w k = false) :
    w.toNat = 2 ^ (t + 1) * (w.toNat / 2 ^ (t + 1)) + 2 ^ t := by
  have rest : w.toNat % 2 ^ (t + 1) = 2 ^ t := by
    apply Nat.eq_of_testBit_eq
    intro k
    rw [Nat.testBit_mod_two_pow, Nat.testBit_two_pow]
    obtain less | rfl | more := Nat.lt_trichotomy k t
    · have clear : w.toNat.testBit k = false := below k less
      have apart : ¬ t = k := fun same => Nat.lt_irrefl k (same ▸ less)
      simp [clear, apart]
    · have isSet : w.toNat.testBit k = true := here
      simp [isSet]
    · have high : ¬ k < t + 1 := by lia
      have apart : ¬ t = k := Nat.ne_of_lt more
      simp [high, apart]
  rw [← rest]
  exact (Nat.div_add_mod _ _).symm

/-- Subtracting one borrows from the lowest bit, which no higher bit notices. -/
theorem bit_withoutLowest {w : UInt64} (some_set : w ≠ 0) (i : Nat) :
    bit (withoutLowest w) i = (bit w i && !decide (trailingZeros w = i)) := by
  obtain ⟨-, here, below⟩ := trailingZeros_spec some_set
  generalize trailingZeros w = t at here below ⊢
  have split := toNat_eq_of_lowest here below
  have one_le : 1 ≤ 2 ^ t := Nat.one_le_two_pow
  have small : 2 ^ t < 2 ^ (t + 1) := Nat.pow_lt_pow_right (by decide) (Nat.lt_succ_self t)
  have pred : (w - 1).toNat = 2 ^ (t + 1) * (w.toNat / 2 ^ (t + 1)) + (2 ^ t - 1) := by
    rw [toNat_sub_one some_set]
    lia
  rw [withoutLowest, bit_and]
  by_cases high : t < i
  · have above : ¬ i < t + 1 := by lia
    have apart : ¬ t = i := Nat.ne_of_lt high
    have same : bit (w - 1) i = bit w i := by
      have here := congrArg (Nat.testBit · i) split
      simp only [Nat.testBit_two_pow_mul_add _ small, above, if_false] at here
      rw [bit, pred, Nat.testBit_two_pow_mul_add _ (by lia), if_neg above, bit, here]
    simp [same, apart]
  · obtain rfl | less := Nat.eq_or_lt_of_le (Nat.le_of_not_lt high)
    · have gone : bit (w - 1) i = false := by
        rw [bit, pred, Nat.testBit_two_pow_mul_add _ (by lia), if_pos (Nat.lt_succ_self i),
          Nat.testBit_two_pow_sub_one]
        simp
      simp [gone]
    · simp [below i less]

theorem mem_setBits {w : UInt64} {i : Nat} : i ∈ setBits w ↔ bit w i = true := by
  fun_induction setBits w with
  | case1 => simp [bit_zero]
  | case2 w some_set ih =>
    obtain ⟨-, here, -⟩ := trailingZeros_spec some_set
    rw [List.mem_cons, ih, bit_withoutLowest some_set]
    constructor
    · rintro (rfl | kept)
      · exact here
      · exact (Bool.and_eq_true_iff.1 kept).1
    · intro isSet
      by_cases lowest : trailingZeros w = i
      · exact .inl lowest.symm
      · exact .inr (by simp [isSet, lowest])

theorem lt_of_mem_setBits {w : UInt64} {i : Nat} (member : i ∈ setBits w) : i < 64 := by
  refine Nat.lt_of_not_le fun high => ?_
  rw [mem_setBits, bit_eq_false_of_le w high] at member
  cases member

theorem pairwise_setBits (w : UInt64) : (setBits w).Pairwise (· < ·) := by
  fun_induction setBits w with
  | case1 => exact .nil
  | case2 w some_set ih =>
    refine .cons (fun i member => ?_) ih
    obtain ⟨-, -, below⟩ := trailingZeros_spec some_set
    rw [mem_setBits, bit_withoutLowest some_set] at member
    obtain ⟨isSet, apart⟩ := Bool.and_eq_true_iff.1 member
    refine Nat.lt_of_le_of_ne (Nat.le_of_not_lt fun less => ?_) (by simpa using apart)
    rw [below i less] at isSet
    cases isSet

theorem setBits_eq_filter (w : UInt64) : setBits w = (List.range 64).filter (bit w) := by
  have sorted : ((List.range 64).filter (bit w)).Pairwise (· < ·) :=
    List.pairwise_lt_range.filter _
  refine (pairwise_setBits w).eq_of_mem_iff sorted fun i => ?_
  rw [mem_setBits, List.mem_filter, List.mem_range]
  exact ⟨fun isSet => ⟨lt_of_mem_setBits (mem_setBits.2 isSet), isSet⟩, And.right⟩

end Word

namespace Bitmap

theorem mem_setBits {b : Bitmap} {i : Nat} : i ∈ b.setBits ↔ b.get i = true := by
  simp only [setBits, List.mem_flatMap, List.mem_map, Prod.exists, List.mk_mem_zipIdx_iff_getElem?,
    Array.getElem?_toList]
  constructor
  · rintro ⟨w, k, found, j, member, rfl⟩
    have bound := Word.lt_of_mem_setBits member
    have here : b.word k = w := by rw [word, Array.getD_eq_getD_getElem?, found, Option.getD_some]
    rw [b.get_at k bound, here]
    exact Word.mem_setBits.1 member
  · intro isSet
    have present : i / 64 < b.words.size := by
      refine Nat.lt_of_not_le fun beyond => Word.ne_zero_of_bit isSet ?_
      rw [word, Array.getD_eq_getD_getElem?, Array.getElem?_eq_none beyond, Option.getD_none]
    refine ⟨b.words[i / 64], i / 64, Array.getElem?_eq_getElem present, i % 64, ?_, ?_⟩
    · rw [Word.mem_setBits]
      rwa [get, word, Array.getD_eq_getD_getElem?, Array.getElem?_eq_getElem present,
        Option.getD_some] at isSet
    · rw [Nat.mul_comm]
      exact Nat.div_add_mod i 64

theorem pairwise_setBits (b : Bitmap) : b.setBits.Pairwise (· < ·) := by
  rw [setBits, List.pairwise_flatMap]
  constructor
  · intro w _
    rw [List.pairwise_map]
    exact (Word.pairwise_setBits w.1).imp fun less => Nat.add_lt_add_left less _
  · refine List.Pairwise.imp ?_ (List.pairwise_iff_getElem.2 fun i j hi hj less => ?_ :
      b.words.toList.zipIdx.Pairwise fun v w => v.2 < w.2)
    · intro v w less x hx y hy
      obtain ⟨i, member, rfl⟩ := List.mem_map.1 hx
      obtain ⟨j, -, rfl⟩ := List.mem_map.1 hy
      have bound := Word.lt_of_mem_setBits member
      lia
    · simpa using less

/-- With no bit behind the last entry, the words have the entries of the bitmap and no others. -/
theorem setBits_eq_members {b : Bitmap} (unpadded : ∀ i, b.get i = true → i < b.size) :
    b.setBits = b.members := by
  have sorted : b.members.Pairwise (· < ·) := List.pairwise_lt_range.filter _
  refine b.pairwise_setBits.eq_of_mem_iff sorted fun i => ?_
  rw [mem_setBits, mem_members]
  exact ⟨fun isSet => ⟨unpadded i isSet, isSet⟩, And.right⟩

end Bitmap

end MarkSweep
