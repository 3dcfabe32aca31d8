import MarkSweep.Arena
import MarkSweep.Directory.History
import Mathlib.Tactic.Common

set_option autoImplicit false

namespace MarkSweep

/-- Whether a page lies where pages lie and its blocks are multiples of the smallest block. A page
with a single block has room for it. -/
structure Page.IsCut (p : Page) : Prop where
  whole : p.IsWhole
  base_pos : 0 < p.base
  aligned : minBlock ∣ p.blockSize
  blockSize_pos : 0 < p.blockSize
  fits : p.kind.isHuge = true → p.blockSize ≤ p.size

namespace Page

theorem mul_le_size {p : Page} (cut : p.IsCut) {i : Nat} (hi : i < p.blockCount) :
    (i + 1) * p.blockSize ≤ p.size := by
  unfold blockCount at hi
  split at hi
  · next huge =>
    obtain rfl : i = 0 := by omega
    rw [Nat.zero_add, Nat.one_mul]
    exact cut.fits huge
  · exact (Nat.le_div_iff_mul_le cut.blockSize_pos).1 hi

theorem blockAddr_add_le {p : Page} (cut : p.IsCut) {i : Nat} (hi : i < p.blockCount) :
    p.blockAddr i + p.blockSize ≤ p.limit := by
  have le := mul_le_size cut hi
  rw [Nat.add_mul, Nat.one_mul] at le
  unfold blockAddr limit
  lia

theorem base_le_blockAddr (p : Page) (i : Nat) : p.base ≤ p.blockAddr i := Nat.le_add_right _ _

theorem contains_of_mem_block {p : Page} (cut : p.IsCut) {i : Nat} (hi : i < p.blockCount)
    {a : Addr} (low : p.blockAddr i ≤ a) (high : a < p.blockAddr i + p.blockSize) :
    p.contains a = true := by
  have top := blockAddr_add_le cut hi
  have bottom := base_le_blockAddr p i
  exact contains_iff.2 ⟨Nat.le_trans bottom low, Nat.lt_of_lt_of_le high top⟩

theorem dvd_blockAddr {p : Page} (cut : p.IsCut) (i : Nat) : minBlock ∣ p.blockAddr i := by
  have unit : minBlock ∣ granule := by decide
  exact Nat.dvd_add (Nat.dvd_trans unit cut.whole.1) (Nat.dvd_mul_left_of_dvd cut.aligned i)

theorem blockAddr_inj {p : Page} (cut : p.IsCut) {i j : Nat}
    (same : p.blockAddr i = p.blockAddr j) : i = j := by
  have := Nat.add_left_cancel same
  exact Nat.eq_of_mul_eq_mul_right cut.blockSize_pos this

theorem div_blockSize_eq_iff {p : Page} (cut : p.IsCut) {a : Addr} (low : p.base ≤ a) {i : Nat} :
    (a - p.base) / p.blockSize = i ↔ p.blockAddr i ≤ a ∧ a < p.blockAddr i + p.blockSize := by
  have pos := cut.blockSize_pos
  rw [Nat.div_eq_iff pos]
  unfold blockAddr
  have comm : p.blockSize * i = i * p.blockSize := Nat.mul_comm _ _
  generalize i * p.blockSize = k at *
  lia

theorem blockAround?_eq_some_iff {p : Page} (cut : p.IsCut) {a : Addr} {i : Nat}
    (hi : i < p.blockCount) :
    p.blockAround? a = some i ↔ p.blockAddr i ≤ a ∧ a < p.blockAddr i + p.blockSize := by
  have bottom := base_le_blockAddr p i
  unfold blockAround?
  by_cases low : a < p.base
  · rw [if_pos low]
    simp only [reduceCtorEq, false_iff, not_and]
    intro h
    exact absurd (Nat.le_trans bottom h) (Nat.not_le_of_lt low)
  · have low' : p.base ≤ a := Nat.le_of_not_lt low
    rw [if_neg low, ← div_blockSize_eq_iff cut low']
    by_cases huge : p.kind.isHuge = true
    · rw [if_pos huge]
      rw [blockCount, if_pos huge] at hi
      obtain rfl : i = 0 := by omega
      rw [Nat.div_eq_zero_iff_lt cut.blockSize_pos]
      simp
    · rw [if_neg huge]
      simp

theorem blockStarting?_eq_some_iff {p : Page} (cut : p.IsCut) {a : Addr} {i : Nat}
    (hi : i < p.blockCount) : p.blockStarting? a = some i ↔ a = p.blockAddr i := by
  have bottom := base_le_blockAddr p i
  unfold blockStarting?
  by_cases low : a < p.base
  · rw [if_pos low]
    simp only [reduceCtorEq, false_iff]
    rintro rfl
    exact absurd bottom (Nat.not_le_of_lt low)
  · rw [if_neg low]
    have low' : p.base ≤ a := Nat.le_of_not_lt low
    by_cases huge : p.kind.isHuge = true
    · rw [if_pos huge]
      rw [blockCount, if_pos huge] at hi
      obtain rfl : i = 0 := by omega
      simp [blockAddr]
    · rw [if_neg huge]
      constructor
      · intro h
        split at h
        · next whole =>
          have quotient : (a - p.base) / p.blockSize = i := by simpa using h
          have := Nat.div_add_mod (a - p.base) p.blockSize
          rw [quotient, whole, Nat.mul_comm] at this
          unfold blockAddr
          lia
        · simp at h
      · rintro rfl
        have offset : p.blockAddr i - p.base = i * p.blockSize := Nat.add_sub_cancel_left _ _
        rw [offset, Nat.mul_mod_left, if_pos rfl, Nat.mul_div_cancel _ cut.blockSize_pos]

end Page

theorem countP_or_of_apart {α : Type} {p q : α → Bool} {l : List α}
    (apart : ∀ a ∈ l, ¬ (p a = true ∧ q a = true)) :
    l.countP (fun a => p a || q a) = l.countP p + l.countP q := by
  induction l with
  | nil => rfl
  | cons a l ih =>
    have rest := ih fun b hb => apart b (List.mem_cons_of_mem a hb)
    have head := apart a List.mem_cons_self
    rw [List.countP_cons, List.countP_cons, List.countP_cons, rest]
    cases hp : p a <;> cases hq : q a <;> simp_all <;> omega

namespace Bitmap

theorem count_set (b : Bitmap) {i : Nat} (inside : i < b.size) (clear : b.get i = false) :
    (b.set i).count = b.count + 1 := by
  have bits : (b.set i).get = fun j => b.get j || decide (i = j) := by
    funext j
    exact get_set b inside j
  have one : (List.range b.size).countP (fun j => decide (i = j)) = 1 := by
    have := List.count_range (a := i) (n := b.size)
    rw [if_pos inside] at this
    rw [← this, List.count]
    refine List.countP_congr fun j _ => ?_
    rw [decide_eq_true_iff, beq_iff_eq, eq_comm]
  rw [count, count, size_set, bits, countP_or_of_apart, one]
  intro j _ both
  obtain rfl : i = j := by simpa using both.2
  simp [clear] at both

theorem count_le_size (b : Bitmap) : b.count ≤ b.size := by
  have := List.countP_le_length (p := b.get) (l := List.range b.size)
  rwa [List.length_range] at this

theorem count_inter_add (b c : Bitmap) :
    (b.inter c).count + (List.range b.size).countP (fun i => b.get i && !c.get i) = b.count := by
  have bits : (b.inter c).get = fun i => b.get i && c.get i := by
    funext i
    exact get_inter b c i
  rw [count, count, size_inter, bits, ← countP_or_of_apart]
  · exact List.countP_congr fun i _ => by cases b.get i <;> cases c.get i <;> simp
  · intro i _ both
    cases hc : c.get i <;> simp [hc] at both

end Bitmap

/-- Whether a slab has a bit for each of its blocks and counts those that are set. -/
structure Slab.Counted (s : Slab) : Prop where
  allocated_size : s.allocated.size = s.page.blockCount
  used_eq : s.used = s.allocated.count

structure Slab.Sound (s : Slab) : Prop where
  cut : s.page.IsCut
  allocated_size : s.allocated.size = s.page.blockCount
  marks_size : s.marks.size = s.page.blockCount
  used_eq : s.used = s.allocated.count
  blank : ∀ word, s.blockOfWord word < s.page.blockCount →
    s.isAllocated (s.blockOfWord word) = false → s.contents.get word = 0

namespace Slab

theorem isAllocated_iff {s : Slab} {i : Nat} :
    s.isAllocated i = true ↔ i < s.page.blockCount ∧ s.allocated.get i = true := by
  simp [isAllocated]

theorem blockOfWord_of_mem_block {s : Slab} (cut : s.page.IsCut) {i : Nat} {a : Addr}
    (low : s.page.blockAddr i ≤ a) (high : a < s.page.blockAddr i + s.page.blockSize) :
    s.blockOfWord ((a - s.page.base) / wordBytes) = i := by
  obtain ⟨m, hm⟩ := cut.aligned
  have pos := cut.blockSize_pos
  rw [blockOfWord, wordBytes, Nat.div_eq_iff pos]
  have start : i * s.page.blockSize = 16 * (i * m) := by
    rw [hm, minBlock, Nat.mul_left_comm]
  unfold Page.blockAddr at low high
  have comm : s.page.blockSize * i = i * s.page.blockSize := Nat.mul_comm _ _
  rw [minBlock] at hm
  generalize i * s.page.blockSize = k at *
  generalize i * m = n at *
  lia

theorem Sound.counted {s : Slab} (sound : s.Sound) : s.Counted :=
  ⟨sound.allocated_size, sound.used_eq⟩

theorem counted_fresh (p : Page) : (fresh p).Counted where
  allocated_size := rfl
  used_eq := by
    refine (List.countP_eq_zero.2 fun i _ => ?_).symm
    rw [fresh, Bitmap.get_empty]
    exact Bool.false_ne_true

theorem sound_fresh {p : Page} (cut : p.IsCut) : (fresh p).Sound where
  cut := cut
  allocated_size := rfl
  marks_size := rfl
  used_eq := (counted_fresh p).used_eq
  blank := by simp [fresh]

theorem sound_remark {s : Slab} (sound : s.Sound) {marks : Bitmap}
    (size : marks.size = s.page.blockCount) : ({ s with marks } : Slab).Sound where
  cut := sound.cut
  allocated_size := sound.allocated_size
  marks_size := size
  used_eq := sound.used_eq
  blank := sound.blank

theorem sound_write {s : Slab} (sound : s.Sound) {i : Nat} (allocated : s.isAllocated i = true)
    {a : Addr} (low : s.page.blockAddr i ≤ a) (high : a < s.page.blockAddr i + s.page.blockSize)
    (w : UInt64) : (s.write a w).Sound where
  cut := sound.cut
  allocated_size := sound.allocated_size
  marks_size := sound.marks_size
  used_eq := sound.used_eq
  blank := by
    intro word inside free
    have here := blockOfWord_of_mem_block sound.cut low high
    have other : ¬ (a - s.page.base) / wordBytes = word := by
      rintro rfl
      have : s.isAllocated (s.blockOfWord ((a - s.page.base) / wordBytes)) = false := free
      rw [here, allocated] at this
      simp at this
    change (s.contents.set ((a - s.page.base) / wordBytes) w).get word = 0
    rw [Words.get_set, if_neg other]
    exact sound.blank word inside free

theorem takeFree_eq_some {s t : Slab} {i : Nat} (taken : s.takeFree = (some i, t)) :
    s.allocated.clearFrom? s.cursor = some i ∧
      t = { s with allocated := s.allocated.set i, used := s.used + 1, cursor := i + 1 } := by
  unfold takeFree at taken
  split at taken
  · next found =>
    rw [Prod.mk.injEq, Option.some.injEq] at taken
    obtain ⟨rfl, rfl⟩ := taken
    exact ⟨found, rfl⟩
  · simp at taken

theorem takeFree_eq_none {s t : Slab} (taken : s.takeFree = (none, t)) :
    t = { s with cursor := s.page.blockCount } := by
  unfold takeFree at taken
  split at taken
  · simp at taken
  · simp_all

theorem isAllocated_takeFree {s t : Slab} (counted : s.Counted) {i : Nat}
    (taken : s.takeFree = (some i, t)) (j : Nat) :
    t.isAllocated j = (s.isAllocated j || decide (i = j)) := by
  obtain ⟨found, rfl⟩ := takeFree_eq_some taken
  obtain ⟨-, inside, -, -⟩ := Bitmap.clearFrom?_eq_some found
  have bound : i < s.page.blockCount := counted.allocated_size ▸ inside
  simp only [isAllocated, Bitmap.get_set _ inside]
  by_cases same : i = j
  · subst same
    simp [bound]
  · simp [same]

theorem free_of_takeFree {s t : Slab} (counted : s.Counted) {i : Nat}
    (taken : s.takeFree = (some i, t)) : i < s.page.blockCount ∧ s.isAllocated i = false := by
  obtain ⟨found, -⟩ := takeFree_eq_some taken
  obtain ⟨-, inside, clear, -⟩ := Bitmap.clearFrom?_eq_some found
  exact ⟨counted.allocated_size ▸ inside, by simp [isAllocated, clear]⟩

theorem counted_takeFree {s t : Slab} (counted : s.Counted) {i : Nat}
    (taken : s.takeFree = (some i, t)) : t.Counted := by
  obtain ⟨found, rfl⟩ := takeFree_eq_some taken
  obtain ⟨-, inside, clear, -⟩ := Bitmap.clearFrom?_eq_some found
  constructor
  · rw [Bitmap.size_set]
    exact counted.allocated_size
  · rw [Bitmap.count_set _ inside clear]
    exact congrArg (· + 1) counted.used_eq

theorem sound_takeFree {s t : Slab} (sound : s.Sound) {i : Nat}
    (taken : s.takeFree = (some i, t)) : t.Sound := by
  have grown := isAllocated_takeFree sound.counted taken
  have counted := counted_takeFree sound.counted taken
  obtain ⟨-, rfl⟩ := takeFree_eq_some taken
  refine ⟨sound.cut, counted.allocated_size, sound.marks_size, counted.used_eq, ?_⟩
  intro word bound free
  rw [grown, Bool.or_eq_false_iff] at free
  exact sound.blank word bound free.1

theorem sound_withCursor {s : Slab} (sound : s.Sound) (cursor : Nat) :
    ({ s with cursor } : Slab).Sound :=
  ⟨sound.cut, sound.allocated_size, sound.marks_size, sound.used_eq, sound.blank⟩

theorem isAllocated_sweep (s : Slab) (i : Nat) :
    s.sweep.isAllocated i = (s.isAllocated i && s.marks.get i) := by
  simp only [isAllocated, get_allocated_sweep]
  exact (Bool.and_assoc _ _ _).symm

theorem counted_sweep {s : Slab} (counted : s.Counted) : s.sweep.Counted where
  allocated_size := counted.allocated_size
  used_eq := by
    have parts := Bitmap.count_inter_add s.allocated s.marks
    have dead : s.dead.length =
        (List.range s.allocated.size).countP fun i => s.allocated.get i && !s.marks.get i :=
      List.countP_eq_length_filter.symm
    change s.used - s.dead.length = (s.allocated.inter s.marks).count
    rw [counted.used_eq, dead]
    omega

theorem sound_sweep {s : Slab} (sound : s.Sound) : s.sweep.Sound where
  cut := sound.cut
  allocated_size := sound.allocated_size
  marks_size := sound.marks_size
  used_eq := (counted_sweep sound.counted).used_eq
  blank := by
    intro word bound free
    have index : s.sweep.blockOfWord word = s.blockOfWord word := rfl
    rw [index] at bound free
    rw [get_contents_sweep]
    split
    · rfl
    · next alive =>
      apply sound.blank word bound
      rw [isAllocated_sweep] at free
      cases kept : s.isAllocated (s.blockOfWord word) with
      | false => rfl
      | true =>
        have inUse := (isAllocated_iff.1 kept).2
        rw [kept, Bool.true_and] at free
        simp [isDead, inUse, free] at alive

theorem read_sweep {s : Slab} (cut : s.page.IsCut) {i : Nat} {a : Addr}
    (low : s.page.blockAddr i ≤ a) (high : a < s.page.blockAddr i + s.page.blockSize)
    (alive : s.isDead i = false) : s.sweep.read a = s.read a := by
  have here := blockOfWord_of_mem_block cut low high
  change s.sweep.contents.get ((a - s.page.base) / wordBytes) = _
  rw [get_contents_sweep, here, alive]
  rfl

theorem read_eq_zero_of_free {s : Slab} (sound : s.Sound) {i : Nat} (bound : i < s.page.blockCount)
    (free : s.isAllocated i = false) {a : Addr} (low : s.page.blockAddr i ≤ a)
    (high : a < s.page.blockAddr i + s.page.blockSize) : s.read a = 0 := by
  have here := blockOfWord_of_mem_block sound.cut low high
  exact sound.blank _ (here.symm ▸ bound) (here.symm ▸ free)

theorem used_pos_of_isAllocated {s : Slab} (sound : s.Sound) {i : Nat}
    (allocated : s.isAllocated i = true) : 0 < s.used := by
  obtain ⟨bound, set⟩ := isAllocated_iff.1 allocated
  rw [sound.used_eq, Bitmap.count, List.countP_pos_iff]
  exact ⟨i, List.mem_range.2 (sound.allocated_size ▸ bound), set⟩

end Slab

end MarkSweep
