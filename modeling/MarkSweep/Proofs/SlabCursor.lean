import MarkSweep.Heap.Retained
import MarkSweep.Proofs.SlabInvariant
import Mathlib.Data.List.Nodup

set_option autoImplicit false

namespace MarkSweep

theorem Bitmap.count_eq_size {b : Bitmap} (all : ∀ i < b.size, b.get i = true) :
    b.count = b.size := by
  rw [count, List.countP_eq_length.2 fun i hi => all i (List.mem_range.1 hi), List.length_range]

namespace Slab

/-- Whether no free block lies below the cursor and no bit is set beyond the last block. -/
structure Tidy (s : Slab) : Prop where
  below : ∀ i < s.cursor, s.isAllocated i = true
  inside : ∀ i, s.allocated.get i = true → i < s.page.blockCount

theorem isFull_iff {s : Slab} : s.isFull = true ↔ s.used = s.page.blockCount := by
  simp [isFull]

def HasRoom (s : Slab) (c : SizeClass) : Prop :=
  s.page.kind = .small c.kind ∧ s.page.blockSize = c.blockSize ∧ s.isFull = false

theorem HasRoom.class_unique {s : Slab} {c d : SizeClass} (room : s.HasRoom c)
    (other : s.HasRoom d) : c = d := by
  obtain ⟨ck, cs⟩ := c
  obtain ⟨dk, ds⟩ := d
  obtain ⟨hc, rfl, -⟩ := room
  obtain ⟨hd, rfl, -⟩ := other
  rw [SizeClass.mk.injEq]
  exact ⟨by simpa using hc.symm.trans hd, rfl⟩

theorem tidy_fresh (p : Page) : (fresh p).Tidy where
  below i low := by simp [fresh] at low
  inside i set := by simp [fresh] at set

theorem tidy_remark {s : Slab} (tidy : s.Tidy) (marks : Bitmap) : ({ s with marks } : Slab).Tidy :=
  ⟨tidy.below, tidy.inside⟩

theorem tidy_sweep {s : Slab} (tidy : s.Tidy) : s.sweep.Tidy where
  below i low := by simp [sweep] at low
  inside i set := by
    rw [get_allocated_sweep, Bool.and_eq_true] at set
    exact tidy.inside i set.1

theorem tidy_takeFree {s t : Slab} {k : Nat} (counted : s.Counted) (tidy : s.Tidy)
    (taken : s.takeFree = (some k, t)) : t.Tidy := by
  have grown := isAllocated_takeFree counted taken
  have bound := (free_of_takeFree counted taken).1
  obtain ⟨found, rfl⟩ := takeFree_eq_some taken
  obtain ⟨-, size, -, passed⟩ := Bitmap.clearFrom?_eq_some found
  constructor
  · intro i low
    rw [grown, Bool.or_eq_true, decide_eq_true_iff]
    have low : i < k + 1 := low
    -- Blocks up to the old cursor were in use, and the search passed over those up to `k`.
    by_cases old : i < s.cursor
    · exact .inl (tidy.below i old)
    · by_cases same : k = i
      · exact .inr same
      · exact .inl (isAllocated_iff.2 ⟨by omega, passed i (by omega) (by omega)⟩)
  · intro i set
    rw [Bitmap.get_set _ size, Bool.or_eq_true, decide_eq_true_iff] at set
    obtain set | rfl := set
    · exact tidy.inside i set
    · exact bound

theorem isAllocated_of_clearFrom? {s : Slab} (counted : s.Counted) {cursor : Nat}
    (passed : ∀ i < cursor, i < s.page.blockCount → s.isAllocated i = true)
    (nothing : s.allocated.clearFrom? cursor = none) {i : Nat} (bound : i < s.page.blockCount) :
    s.isAllocated i = true := by
  by_cases old : i < cursor
  · exact passed i old bound
  · have inside : i < s.allocated.size := counted.allocated_size ▸ bound
    exact isAllocated_iff.2 ⟨bound, Bitmap.clearFrom?_eq_none nothing (by omega) inside⟩

theorem isAllocated_of_takeFree {s t : Slab} (counted : s.Counted) (tidy : s.Tidy)
    (refused : s.takeFree = (none, t)) {i : Nat} (bound : i < s.page.blockCount) :
    s.isAllocated i = true := by
  refine isAllocated_of_clearFrom? counted (fun i old _ => tidy.below i old) ?_ bound
  unfold takeFree at refused
  split at refused
  · simp at refused
  · assumption

theorem exists_takeFree {s : Slab} (counted : s.Counted) (tidy : s.Tidy)
    (room : s.isFull = false) : ∃ k t, s.takeFree = (some k, t) := by
  cases taking : s.takeFree with
  | mk taken t =>
    cases taken with
    | some k => exact ⟨k, t, rfl⟩
    | none =>
      have all : ∀ i < s.allocated.size, s.allocated.get i = true := by
        intro i inside
        rw [counted.allocated_size] at inside
        exact (isAllocated_iff.1 (isAllocated_of_takeFree counted tidy taking inside)).2
      have full := counted.used_eq.trans (Bitmap.count_eq_size all)
      rw [counted.allocated_size] at full
      rw [isFull_iff.2 full] at room
      contradiction

theorem isFull_eq_false_iff {s : Slab} (counted : s.Counted) (tidy : s.Tidy) :
    s.isFull = false ↔ ∃ k < s.page.blockCount, s.isAllocated k = false := by
  constructor
  · intro room
    obtain ⟨k, t, taken⟩ := exists_takeFree counted tidy room
    exact ⟨k, free_of_takeFree counted taken⟩
  · rintro ⟨k, bound, free⟩
    rw [Bool.eq_false_iff, Ne, isFull_iff]
    intro full
    have count : s.allocated.count = (List.range s.allocated.size).length := by
      rw [← counted.used_eq, full, List.length_range, counted.allocated_size]
    have all := List.countP_eq_length.1 count k
      (List.mem_range.2 (counted.allocated_size ▸ bound))
    rw [isAllocated_iff.2 ⟨bound, all⟩] at free
    contradiction

theorem page_of_takeFree {s t : Slab} {k : Nat} (taken : s.takeFree = (some k, t)) :
    t.page = s.page := by
  obtain ⟨-, rfl⟩ := takeFree_eq_some taken
  rfl

theorem used_of_takeFree {s t : Slab} {k : Nat} (taken : s.takeFree = (some k, t)) :
    t.used = s.used + 1 := by
  obtain ⟨-, rfl⟩ := takeFree_eq_some taken
  rfl

def blocks (s : Slab) : List Block := s.allocated.members.map s.block

theorem length_blocks {s : Slab} (sound : s.Sound) : s.blocks.length = s.used := by
  rw [blocks, List.length_map, ← Bitmap.count_eq_length_members, sound.used_eq]

theorem mem_blocks {s : Slab} (sound : s.Sound) {b : Block} :
    b ∈ s.blocks ↔ ∃ k, s.isAllocated k = true ∧ b = s.block k := by
  simp only [blocks, List.mem_map, Bitmap.mem_members, isAllocated_iff, sound.allocated_size]
  exact exists_congr fun k => and_congr_right fun _ => eq_comm

theorem total_size_blocks {s : Slab} (sound : s.Sound) :
    total (·.size) s.blocks = s.used * s.page.blockSize := by
  have sizes : total (·.size) s.blocks = total (fun _ => s.page.blockSize) s.allocated.members :=
    total_map _ _ _
  rw [sizes, total_const, ← Bitmap.count_eq_length_members, sound.used_eq]

theorem nodup_blocks {s : Slab} (sound : s.Sound) : s.blocks.Nodup := by
  refine List.Nodup.map_on (fun i _ j _ same => ?_) (List.nodup_range.filter _)
  exact Page.blockAddr_inj sound.cut (congrArg Block.addr same)

end Slab

end MarkSweep
