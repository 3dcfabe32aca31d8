import MarkSweep.Proofs.SetBits
import MarkSweep.Proofs.SlabCursor
import MarkSweep.Slab.History
import MarkSweep.Slab.Search

set_option autoImplicit false

namespace MarkSweep

namespace Word

theorem bit_clearBits (w : UInt64) {i j : Nat} (low : i < 64) (bound : j < 64) :
    bit (clearBits w i) j = (decide (i ≤ j) && !bit w j) := by
  have shift : bit (0xFFFFFFFFFFFFFFFF <<< UInt64.ofNat i) j = decide (i ≤ j) := by
    have amount : (UInt64.ofNat i).toNat % 64 = i := by
      rw [UInt64.toNat_ofNat_of_lt' (Nat.lt_trans low (by decide)), Nat.mod_eq_of_lt low]
    have ones : (0xFFFFFFFFFFFFFFFF : UInt64).toNat = 2 ^ 64 - 1 := rfl
    rw [bit, UInt64.toNat_shiftLeft, amount, Nat.testBit_mod_two_pow, Nat.testBit_shiftLeft, ones,
      Nat.testBit_two_pow_sub_one]
    by_cases above : i ≤ j
    · have offset : j - i < 64 := by omega
      simp [above, bound, offset]
    · simp [above]
  rw [clearBits, bit_and, bit_not w bound, shift, Bool.and_comm]

/-- The lowest clear bit from bit `i` on is the lowest bit that the mask leaves. -/
theorem clearFrom?_eq (w : UInt64) {i : Nat} (low : i < 64) :
    clearFrom? w i =
      if clearBits w i = 0 then none else some (trailingZeros (clearBits w i)) := by
  cases search : clearFrom? w i with
  | none =>
    have nothing : clearBits w i = 0 := by
      apply ext
      intro j bound
      rw [bit_zero, bit_clearBits w low bound]
      by_cases above : i ≤ j
      · simp [clearFrom?_eq_none search above bound]
      · simp [above]
    rw [if_pos nothing]
  | some j =>
    obtain ⟨above, bound, clear, passed⟩ := clearFrom?_eq_some search
    have here : bit (clearBits w i) j = true := by
      rw [bit_clearBits w low bound]
      simp [above, clear]
    have some_set := ne_zero_of_bit here
    obtain ⟨bound', here', below⟩ := trailingZeros_spec some_set
    rw [if_neg some_set, Option.some.injEq]
    generalize trailingZeros (clearBits w i) = t at *
    obtain less | rfl | more := Nat.lt_trichotomy j t
    · rw [below j less] at here
      contradiction
    · rfl
    · rw [bit_clearBits w low bound', Bool.and_eq_true, decide_eq_true_iff] at here'
      rw [passed t here'.1 more] at here'
      simp at here'

end Word

namespace Slab

/-- The search ends with the word of the last block, and finds what the bitmap has from the cursor
on. Each look uses up one of the words that are left. -/
theorem search?_eq {s : Slab} (counted : s.Counted) {looks cursor : Nat}
    (enough : wordsFor s.page.blockCount - cursor / 64 < looks) :
    s.search? looks cursor = some (s.allocated.clearFrom? cursor) := by
  induction looks generalizing cursor with
  | zero => omega
  | succ looks ih =>
    rw [Bitmap.clearFrom?, counted.allocated_size, search?, look]
    by_cases inside : cursor < s.page.blockCount
    · rw [if_pos inside, if_pos inside, Word.clearFrom?_eq _ (Nat.mod_lt _ (by decide))]
      by_cases none_free : Word.clearBits (s.allocated.word (cursor / 64)) (cursor % 64) = 0
      · simp only [none_free, if_true]
        apply ih
        rw [wordsFor] at enough ⊢
        omega
      · -- The lowest bit of the mask may stand for no block, in the last word only.
        by_cases bound : cursor / 64 * 64 + Word.trailingZeros (Word.clearBits
            (s.allocated.word (cursor / 64)) (cursor % 64)) < s.page.blockCount
        · simp only [none_free, bound, if_false, if_true]
        · simp only [none_free, bound, if_false]
    · rw [if_neg inside, if_neg inside]

def IsLowestFree (s : Slab) (i : Nat) : Prop :=
  i < s.page.blockCount ∧ s.isAllocated i = false ∧ ∀ j < i, s.isAllocated j = true

instance (s : Slab) (i : Nat) : Decidable (s.IsLowestFree i) :=
  inferInstanceAs (Decidable (_ ∧ _ ∧ _))

theorem IsLowestFree.unique {s : Slab} {i j : Nat} (one : s.IsLowestFree i)
    (two : s.IsLowestFree j) : i = j := by
  obtain ⟨-, free, below⟩ := one
  obtain ⟨-, free', below'⟩ := two
  obtain less | same | more := Nat.lt_trichotomy i j
  · rw [below' i less] at free
    contradiction
  · exact same
  · rw [below j more] at free'
    contradiction

/-- From a cursor with no free block below, the bitmap has the lowest free block of all. -/
theorem clearFrom?_eq_some_iff {s : Slab} (counted : s.Counted) {cursor : Nat}
    (passed : ∀ i < cursor, i < s.page.blockCount → s.isAllocated i = true) {i : Nat} :
    s.allocated.clearFrom? cursor = some i ↔ s.IsLowestFree i := by
  have sound : ∀ j, s.allocated.clearFrom? cursor = some j → s.IsLowestFree j := by
    intro j found
    obtain ⟨-, inside, clear, between⟩ := Bitmap.clearFrom?_eq_some found
    rw [counted.allocated_size] at inside
    refine ⟨inside, by simp [isAllocated, clear], ?_⟩
    intro k less
    have bound := Nat.lt_trans less inside
    by_cases old : k < cursor
    · exact passed k old bound
    · exact isAllocated_iff.2 ⟨bound, between k (by omega) less⟩
  refine ⟨sound i, fun lowest => ?_⟩
  cases search : s.allocated.clearFrom? cursor with
  | some j => rw [(sound j search).unique lowest]
  | none =>
    have used := isAllocated_of_clearFrom? counted passed search lowest.1
    rw [lowest.2.1] at used
    contradiction

theorem fst_takeFree (s : Slab) : s.takeFree.1 = s.allocated.clearFrom? s.cursor := by
  unfold takeFree
  split <;> simp_all

theorem tidy_refused {s t : Slab} (counted : s.Counted) (tidy : s.Tidy)
    (refused : s.takeFree = (none, t)) : t.Tidy := by
  have all : ∀ i < s.page.blockCount, s.isAllocated i = true := fun i bound =>
    isAllocated_of_takeFree counted tidy refused bound
  obtain rfl := takeFree_eq_none refused
  exact ⟨all, tidy.inside⟩

theorem Reachable.tidy {page : Page} {s : Slab} (reachable : Slab.Reachable page s) :
    s.page = page ∧ s.Counted ∧ s.Tidy := by
  induction reachable with
  | fresh => exact ⟨rfl, counted_fresh page, tidy_fresh page⟩
  | @takeFree s before ih =>
    obtain ⟨same, counted, tidy⟩ := ih
    cases taking : s.takeFree with
    | mk taken t =>
      cases taken with
      | some i =>
        exact ⟨(page_of_takeFree taking).trans same, counted_takeFree counted taking,
          tidy_takeFree counted tidy taking⟩
      | none =>
        have tidy' := tidy_refused counted tidy taking
        obtain rfl := takeFree_eq_none taking
        exact ⟨same, ⟨counted.allocated_size, counted.used_eq⟩, tidy'⟩
  | remark marks before size ih =>
    obtain ⟨same, counted, tidy⟩ := ih
    exact ⟨same, ⟨counted.allocated_size, counted.used_eq⟩, tidy_remark tidy marks⟩
  | sweep before ih =>
    obtain ⟨same, counted, tidy⟩ := ih
    exact ⟨same, counted_sweep counted, tidy_sweep tidy⟩

structure TakesLowest (s : Slab) : Prop where
  none_iff : s.takeFree.1 = none ↔ ∀ i < s.page.blockCount, s.isAllocated i = true
  isFull_iff : s.isFull = true ↔ ∀ i < s.page.blockCount, s.isAllocated i = true
  some_iff : ∀ i, s.takeFree.1 = some i ↔ s.IsLowestFree i
  set : ∀ i, s.takeFree.1 = some i →
    ∀ j, s.takeFree.2.allocated.get j = (s.allocated.get j || decide (i = j))
  counts : ∀ i, s.takeFree.1 = some i → s.takeFree.2.used = s.used + 1
  unchanged : s.takeFree.1 = none →
    s.takeFree.2.allocated = s.allocated ∧ s.takeFree.2.used = s.used
  rest : s.takeFree.2.page = s.page ∧ s.takeFree.2.marks = s.marks ∧
    s.takeFree.2.contents = s.contents
  spare : ∀ i, s.page.blockCount ≤ i → s.allocated.get i = false
  passed : ∀ i < s.cursor, s.isAllocated i = true
  /-- The search that looks at word after word is over when it has seen the last word. It may start
  at any cursor that no free block lies below. -/
  ends : ∀ cursor, (∀ i < cursor, i < s.page.blockCount → s.isAllocated i = true) →
    ∀ looks, wordsFor s.page.blockCount - cursor / 64 < looks →
      s.search? looks cursor = some s.takeFree.1

theorem takesLowest_of_tidy {s : Slab} (counted : s.Counted) (tidy : s.Tidy) : s.TakesLowest := by
  have passed : ∀ i < s.cursor, i < s.page.blockCount → s.isAllocated i = true :=
    fun i low _ => tidy.below i low
  have some_iff : ∀ i, s.takeFree.1 = some i ↔ s.IsLowestFree i := by
    intro i
    rw [fst_takeFree]
    exact clearFrom?_eq_some_iff counted passed
  have full : s.isFull = true ↔ ∀ i < s.page.blockCount, s.isAllocated i = true := by
    rw [← Bool.not_eq_false, isFull_eq_false_iff counted tidy]
    simp
  have pair : ∀ {taken : Option Nat}, s.takeFree.1 = taken → s.takeFree = (taken, s.takeFree.2) :=
    fun first => Prod.ext first rfl
  constructor
  case none_iff =>
    constructor
    · intro refused i bound
      exact isAllocated_of_takeFree counted tidy (pair refused) bound
    · intro all
      cases taken : s.takeFree.1 with
      | none => rfl
      | some i =>
        obtain ⟨bound, free, -⟩ := (some_iff i).1 taken
        rw [all i bound] at free
        contradiction
  case isFull_iff => exact full
  case some_iff => exact some_iff
  case set =>
    intro i taken j
    obtain ⟨found, same⟩ := takeFree_eq_some (pair taken)
    obtain ⟨-, inside, -, -⟩ := Bitmap.clearFrom?_eq_some found
    rw [same]
    exact Bitmap.get_set _ inside j
  case counts =>
    intro i taken
    exact used_of_takeFree (pair taken)
  case unchanged =>
    intro refused
    rw [takeFree_eq_none (pair refused)]
    exact ⟨rfl, rfl⟩
  case rest =>
    unfold takeFree
    split <;> exact ⟨rfl, rfl, rfl⟩
  case spare =>
    intro i beyond
    rw [Bool.eq_false_iff]
    intro isSet
    exact absurd (tidy.inside i isSet) (by omega)
  case passed => exact tidy.below
  case ends =>
    intro cursor below looks enough
    rw [search?_eq counted enough]
    refine congrArg some (Option.ext fun i => ?_)
    rw [clearFrom?_eq_some_iff counted below, some_iff i]

/-- Whatever was taken, marked and swept before, the next block taken is the lowest free one. -/
theorem takesLowest_of_reachable {page : Page} {s : Slab} (reachable : Slab.Reachable page s) :
    s.page = page ∧ s.TakesLowest := by
  obtain ⟨same, counted, tidy⟩ := reachable.tidy
  exact ⟨same, takesLowest_of_tidy counted tidy⟩

def afterTaking : Nat → Slab → Slab
  | 0, s => s
  | n + 1, s => afterTaking n s.takeFree.2

theorem reachable_afterTaking {page : Page} {s : Slab} (reachable : Slab.Reachable page s)
    (n : Nat) : Slab.Reachable page (s.afterTaking n) := by
  induction n generalizing s with
  | zero => exact reachable
  | succ n ih => exact ih reachable.takeFree

def oddPage : Page :=
  { id := 0, base := 65536, size := 65536, kind := .small .raw, blockSize := 1000 }

def oddSlab : Slab :=
  (((fresh oddPage).afterTaking 65).remark ((List.range 64).foldl Bitmap.set (.empty 65))).sweep

theorem takesLowest_of_reachable_oddSlab :
    Slab.Reachable oddPage oddSlab ∧ oddPage.blockCount = 65 ∧ oddSlab.takeFree.1 = some 64 ∧
      oddSlab.takeFree.2.takeFree.1 = none ∧ oddSlab.search? 3 0 = some (some 64) := by
  have reachable : Slab.Reachable oddPage oddSlab :=
    (Slab.Reachable.remark _ (reachable_afterTaking .fresh 65) (by decide +kernel)).sweep
  obtain ⟨-, lowest⟩ := takesLowest_of_reachable reachable
  obtain ⟨-, next⟩ := takesLowest_of_reachable reachable.takeFree
  have taken : oddSlab.takeFree.1 = some 64 := (lowest.some_iff 64).2 (by decide +kernel)
  refine ⟨reachable, by decide, taken, next.none_iff.2 (by decide +kernel), ?_⟩
  rw [← taken]
  exact lowest.ends 0 (by simp) 3 (by decide +kernel)

end Slab

end MarkSweep
