set_option autoImplicit false

namespace MarkSweep

abbrev Word := UInt64

def wordBytes : Nat := 8

namespace Word

def bit (w : UInt64) (i : Nat) : Bool := w.toNat.testBit i

def withBit (w : UInt64) (i : Nat) : UInt64 := w ||| (1 <<< UInt64.ofNat i)

def withoutBit (w : UInt64) (i : Nat) : UInt64 := w &&& ~~~(1 <<< UInt64.ofNat i)

theorem bit_zero (i : Nat) : bit 0 i = false := by simp [bit]

theorem bit_eq_false_of_le (w : UInt64) {i : Nat} (h : 64 ≤ i) : bit w i = false :=
  Nat.testBit_lt_two_pow (Nat.lt_of_lt_of_le w.toNat_lt (Nat.pow_le_pow_right (by decide) h))

theorem bit_withBit (w : UInt64) {i : Nat} (h : i < 64) (j : Nat) :
    bit (withBit w i) j = (bit w j || decide (i = j)) := by
  have shift : ((1 : UInt64) <<< UInt64.ofNat i).toNat = 2 ^ i := by
    rw [UInt64.toNat_shiftLeft, UInt64.toNat_ofNat', Nat.mod_eq_of_lt (Nat.lt_trans h (by decide)),
      Nat.mod_eq_of_lt h]
    simp only [UInt64.reduceToNat, Nat.shiftLeft_eq, Nat.one_mul]
    exact Nat.mod_eq_of_lt (Nat.pow_lt_pow_right (by decide) h)
  simp only [bit, withBit, UInt64.toNat_or, Nat.testBit_or, shift, Nat.testBit_two_pow]

theorem bit_and (v w : UInt64) (i : Nat) : bit (v &&& w) i = (bit v i && bit w i) := by
  simp [bit, UInt64.toNat_and, Nat.testBit_and]

theorem bit_not (w : UInt64) {i : Nat} (h : i < 64) : bit (~~~w) i = !bit w i := by
  rw [bit, bit, UInt64.toNat_not, Nat.sub_sub, Nat.add_comm 1,
    show UInt64.size = 2 ^ 64 from rfl, Nat.testBit_two_pow_sub_succ w.toNat_lt]
  simp [h]

theorem bit_withoutBit (w : UInt64) {i : Nat} (h : i < 64) (j : Nat) :
    bit (withoutBit w i) j = (bit w j && !decide (i = j)) := by
  by_cases hj : j < 64
  · have shift := bit_withBit 0 h j
    rw [withBit, UInt64.zero_or, bit_zero, Bool.false_or] at shift
    rw [withoutBit, bit_and, bit_not _ hj, shift]
  · have hj' : 64 ≤ j := by omega
    rw [bit_eq_false_of_le _ hj', bit_eq_false_of_le _ hj', Bool.false_and]

theorem ext {v w : UInt64} (h : ∀ i < 64, bit v i = bit w i) : v = w := by
  apply UInt64.toNat_inj.1
  apply Nat.eq_of_testBit_eq
  intro i
  by_cases hi : i < 64
  · exact h i hi
  · have hi' : 64 ≤ i := by omega
    exact (bit_eq_false_of_le v hi').trans (bit_eq_false_of_le w hi').symm

theorem withoutBit_withBit {w : UInt64} {i : Nat} (h : i < 64) (clear : bit w i = false) :
    withoutBit (withBit w i) i = w := by
  apply ext
  intro j _
  rw [bit_withoutBit _ h, bit_withBit _ h]
  by_cases same : i = j
  · subst same
    simp [clear]
  · simp [same]

theorem bit_foldl_withBit (w : UInt64) {is : List Nat} (h : ∀ i ∈ is, i < 64) (j : Nat) :
    bit (is.foldl withBit w) j = (bit w j || decide (j ∈ is)) := by
  induction is generalizing w with
  | nil => simp
  | cons i rest ih =>
    rw [List.foldl_cons, ih _ fun k mem => h k (List.mem_cons_of_mem i mem),
      bit_withBit _ (h i List.mem_cons_self), Bool.or_assoc]
    by_cases same : i = j
    · simp [same]
    · simp [same, Ne.symm same]

/-- The lowest clear bit at or above bit `i`, if one of the 64 bits qualifies. -/
def clearFrom? (w : UInt64) (i : Nat) : Option Nat :=
  if i < 64 then if bit w i then clearFrom? w (i + 1) else some i else none
termination_by 64 - i

theorem clearFrom?_eq_some {w : UInt64} {i j : Nat} (h : clearFrom? w i = some j) :
    i ≤ j ∧ j < 64 ∧ bit w j = false ∧ ∀ k, i ≤ k → k < j → bit w k = true := by
  fun_induction clearFrom? w i with
  | case1 i hi hb ih =>
    obtain ⟨h1, h2, h3, h4⟩ := ih h
    refine ⟨by omega, h2, h3, fun k hk hkj => ?_⟩
    by_cases hik : i = k
    · exact hik ▸ hb
    · exact h4 k (by omega) hkj
  | case2 i hi hb =>
    obtain rfl : i = j := by simpa using h
    exact ⟨Nat.le_refl _, hi, by simpa using hb, fun k hk hkj => by omega⟩
  | case3 => simp at h

theorem clearFrom?_eq_none {w : UInt64} {i : Nat} (h : clearFrom? w i = none) {k : Nat}
    (hk : i ≤ k) (hk64 : k < 64) : bit w k = true := by
  fun_induction clearFrom? w i with
  | case1 i hi hb ih =>
    by_cases hik : i = k
    · exact hik ▸ hb
    · exact ih h (by omega)
  | case2 => simp at h
  | case3 i hi => omega

end Word

end MarkSweep
