import MarkSweep.Proofs.SetBits
import MarkSweep.Proofs.SlabCursor
import MarkSweep.Slab.Sweep

set_option autoImplicit false

namespace MarkSweep

namespace Word

/-- Marked bits that a walk comes upon are struck out, and others stay. -/
theorem bit_foldl_strike (marked : Nat → Bool) {bits : List Nat} (low : ∀ i ∈ bits, i < 64)
    (w : UInt64) (j : Nat) :
    bit (bits.foldl (fun w i => if marked i then withoutBit w i else w) w) j =
      (bit w j && !(decide (j ∈ bits) && marked j)) := by
  induction bits generalizing w with
  | nil => simp
  | cons i bits ih =>
    rw [List.foldl_cons, ih fun k member => low k (List.mem_cons_of_mem i member)]
    have first : bit (if marked i then withoutBit w i else w) j =
        (bit w j && !(decide (i = j) && marked j)) := by
      by_cases here : marked i = true
      · rw [if_pos here, bit_withoutBit w (low i List.mem_cons_self)]
        by_cases same : i = j
        · subst same
          simp [here]
        · simp [same]
      · by_cases same : i = j
        · subst same
          simp [here]
        · simp [here, same]
    rw [first]
    by_cases same : i = j
    · subst same
      cases bit w i <;> cases marked i <;> simp
    · simp [same, Ne.symm same]

end Word

namespace Bitmap

theorem get_clearAt (b : Bitmap) (k : Nat) (bits : UInt64) (i : Nat) :
    (b.clearAt k bits).get i = (b.get i && !(decide (i / 64 = k) && Word.bit bits (i % 64))) := by
  have low : i % 64 < 64 := Nat.mod_lt _ (by decide)
  simp only [get, clearAt, word, Array.getD_eq_getD_getElem?, Array.getElem?_modify]
  by_cases here : i / 64 = k
  · subst here
    cases b.words[i / 64]? with
    | none => simp [Word.bit_zero]
    | some w => simp [Word.bit_and, Word.bit_not _ low]
  · simp [here, Ne.symm here]

end Bitmap

namespace Slab

variable {s t : Slab} {k n freed : Nat}

theorem bit_deadBits (s : Slab) (k : Nat) {i : Nat} (low : i < 64) :
    Word.bit (s.deadBits k) i = s.isDead (k * 64 + i) := by
  rw [deadBits, Word.bit_foldl_strike (fun i => s.marks.get (k * 64 + i))
    (fun _ => Word.lt_of_mem_setBits), isDead, s.allocated.get_at k low]
  by_cases isSet : Word.bit (s.allocated.word k) i = true
  · simp [isSet, Word.mem_setBits.2 isSet]
  · simp [isSet]

theorem mem_deadBits_iff (s : Slab) (k j : Nat) :
    j ∈ (Word.setBits (s.deadBits k)).map (k * 64 + ·) ↔
      k * 64 ≤ j ∧ j < (k + 1) * 64 ∧ s.isDead j = true := by
  rw [List.mem_map]
  constructor
  · rintro ⟨i, member, rfl⟩
    have low := Word.lt_of_mem_setBits member
    rw [Word.mem_setBits, bit_deadBits s k low] at member
    exact ⟨by lia, by lia, member⟩
  · rintro ⟨low, high, dead⟩
    have offset : k * 64 + (j - k * 64) = j := by lia
    refine ⟨j - k * 64, ?_, offset⟩
    rwa [Word.mem_setBits, bit_deadBits s k (by lia), offset]

theorem length_deadBits (s : Slab) (k : Nat) :
    (Word.setBits (s.deadBits k)).length = ((List.range 64).map (k * 64 + ·)).countP s.isDead := by
  rw [Word.setBits_eq_filter, ← List.countP_eq_length_filter, List.countP_map]
  refine List.countP_congr fun i member => ?_
  rw [bit_deadBits s k (List.mem_range.1 member)]
  rfl

theorem get_contents_zeroBlock (positive : 0 < s.page.blockSize) (index word : Nat) :
    (s.zeroBlock index).contents.get word =
      if s.blockOfWord word = index then 0 else s.contents.get word := by
  have around : s.blockOfWord word = index ↔ index * s.page.blockSize ≤ word * wordBytes ∧
      word * wordBytes < index * s.page.blockSize + s.page.blockSize := by
    rw [blockOfWord, Nat.div_eq_iff positive]
    lia
  rw [zeroBlock, Words.get_keep]
  by_cases inside : s.blockOfWord word = index
  · simp [inside, around.1 inside]
  · have outside := fun low => (not_and.1 fun both => inside (around.2 both)) low
    simp_all

theorem zeroBlocks_spec (positive : 0 < s.page.blockSize) (k : Nat) (bits : List Nat) (n : Nat) :
    ∃ contents : Words, zeroBlocks k bits (s, n) = ({ s with contents }, n + bits.length) ∧
      ∀ word, contents.get word =
        if s.blockOfWord word ∈ bits.map (k * 64 + ·) then 0 else s.contents.get word := by
  induction bits generalizing s n with
  | nil => exact ⟨s.contents, rfl, by simp⟩
  | cons i bits ih =>
    obtain ⟨contents, rest, words⟩ := ih (s := s.zeroBlock (k * 64 + i)) positive (n + 1)
    refine ⟨contents, ?_, fun word => ?_⟩
    · change zeroBlocks k bits (s.zeroBlock (k * 64 + i), n + 1) = _
      rw [rest, List.length_cons, Nat.add_assoc, Nat.add_comm 1]
      rfl
    · rw [words, get_contents_zeroBlock positive]
      have same : (s.zeroBlock (k * 64 + i)).blockOfWord word = s.blockOfWord word := rfl
      simp only [same, List.map_cons, List.mem_cons]
      by_cases now : s.blockOfWord word = k * 64 + i <;> simp [now]

/-- What a sweep has made of a slab when it has been through so many words. -/
structure SweptTo (s : Slab) (n : Nat) (t : Slab) (freed : Nat) : Prop where
  rest : t.page = s.page ∧ t.marks = s.marks ∧ t.used = s.used
  size : t.allocated.size = s.allocated.size
  get_allocated : ∀ i, t.allocated.get i = (s.allocated.get i && !(decide (i < n * 64) && s.isDead i))
  get_contents : ∀ word, t.contents.get word =
    if s.blockOfWord word < n * 64 ∧ s.isDead (s.blockOfWord word) then 0 else s.contents.get word
  freed_eq : freed = (List.range (n * 64)).countP s.isDead

theorem SweptTo.isDead_eq (upTo : s.SweptTo n t freed) {i : Nat} (ahead : n * 64 ≤ i) :
    t.isDead i = s.isDead i := by
  rw [isDead, upTo.get_allocated, upTo.rest.2.1, isDead]
  simp [Nat.not_lt.2 ahead]

/-- A word with no block in use needs no look at the marks, and a look would change nothing. -/
theorem sweepWord_eq (positive : 0 < s.page.blockSize) (k freed : Nat) :
    ∃ contents : Words, sweepWord (s, freed) k =
        ({ s with allocated := s.allocated.clearAt k (s.deadBits k), contents },
          freed + (Word.setBits (s.deadBits k)).length) ∧
      ∀ word, contents.get word =
        if s.blockOfWord word ∈ (Word.setBits (s.deadBits k)).map (k * 64 + ·) then 0
        else s.contents.get word := by
  by_cases unused : s.allocated.word k = 0
  · have none : s.deadBits k = 0 := by
      rw [deadBits, unused, Word.setBits]
      rfl
    have unchanged : s.allocated.clearAt k 0 = s.allocated := by
      refine Bitmap.ext rfl fun i => ?_
      rw [Bitmap.get_clearAt]
      simp [Word.bit_zero]
    refine ⟨s.contents, ?_, ?_⟩
    · rw [sweepWord, if_pos unused, none, unchanged, Word.setBits]
      rfl
    · rw [none, Word.setBits]
      simp
  · obtain ⟨contents, zeroed, words⟩ :=
      zeroBlocks_spec positive k (Word.setBits (s.deadBits k)) freed
    refine ⟨contents, ?_, words⟩
    rw [sweepWord, if_neg unused]
    simp only [zeroed]

theorem sweptTo_sweepWord (positive : 0 < s.page.blockSize) (upTo : s.SweptTo n t freed) :
    s.SweptTo (n + 1) (sweepWord (t, freed) n).1 (sweepWord (t, freed) n).2 := by
  obtain ⟨contents, swept, words⟩ := sweepWord_eq (s := t) (upTo.rest.1 ▸ positive) n freed
  rw [swept]
  refine ⟨upTo.rest, upTo.size, fun i => ?_, fun word => ?_, ?_⟩
  · have low : i % 64 < 64 := Nat.mod_lt _ (by decide)
    rw [Bitmap.get_clearAt, upTo.get_allocated, bit_deadBits t n low, upTo.isDead_eq (by lia)]
    obtain before | rfl | after := Nat.lt_trichotomy (i / 64) n
    · simp [show ¬ i / 64 = n by lia, show i < n * 64 by lia, show i < (n + 1) * 64 by lia]
    · simp [show i / 64 * 64 + i % 64 = i by lia, show ¬ i < i / 64 * 64 by lia,
        show i < (i / 64 + 1) * 64 by lia]
    · simp [show ¬ i / 64 = n by lia, show ¬ i < n * 64 by lia, show ¬ i < (n + 1) * 64 by lia]
  · have same : t.blockOfWord word = s.blockOfWord word := by rw [blockOfWord, upTo.rest.1]; rfl
    rw [words, upTo.get_contents, same]
    simp only [mem_deadBits_iff]
    obtain before | here := Nat.lt_or_ge (s.blockOfWord word) (n * 64)
    · have within : s.blockOfWord word < (n + 1) * 64 := by lia
      simp [before, within, Nat.not_le.2 before]
    · simp [here, Nat.not_lt.2 here, upTo.isDead_eq here]
  · rw [Nat.succ_mul, List.range_add, List.countP_append, upTo.freed_eq, length_deadBits]
    refine congrArg _ (List.countP_congr fun i member => ?_)
    obtain ⟨j, -, rfl⟩ := List.mem_map.1 member
    rw [upTo.isDead_eq (Nat.le_add_right _ _)]

theorem sweptTo_foldl (positive : 0 < s.page.blockSize) (n : Nat) :
    s.SweptTo n ((List.range n).foldl sweepWord (s, 0)).1
      ((List.range n).foldl sweepWord (s, 0)).2 := by
  induction n with
  | zero => exact ⟨⟨rfl, rfl, rfl⟩, rfl, by simp, by simp, by simp⟩
  | succ n ih =>
    rw [List.range_succ, List.foldl_append]
    exact sweptTo_sweepWord positive ih

/-- **Word after word, a sweep does what it does all at once.** -/
theorem sweepWords_eq (sound : s.Sound) (tidy : s.Tidy) :
    s.sweepWords = (s.sweep, s.dead.length, s.dead.length * s.page.blockSize) := by
  have upTo := sweptTo_foldl sound.cut.blockSize_pos s.allocated.words.size
  have all : s.allocated.size ≤ s.allocated.words.size * 64 := by
    rw [s.allocated.words_size, wordsFor]
    lia
  have within : ∀ i, s.isDead i = true → i < s.allocated.size := fun i dead => by
    rw [sound.allocated_size]
    exact tidy.inside i (Bool.and_eq_true_iff.1 dead).1
  have count : (List.range (s.allocated.words.size * 64)).countP s.isDead = s.dead.length := by
    obtain ⟨spare, sum⟩ := Nat.exists_eq_add_of_le all
    rw [sum, List.range_add, List.countP_append, dead, ← List.countP_eq_length_filter,
      Nat.add_eq_left, List.countP_eq_zero]
    rintro i member dead
    obtain ⟨j, -, rfl⟩ := List.mem_map.1 member
    exact absurd (within _ dead) (by lia)
  have freed := upTo.freed_eq.trans count
  obtain ⟨page, marks, used⟩ := upTo.rest
  rw [sweepWords]
  generalize (List.range s.allocated.words.size).foldl sweepWord (s, 0) = swept at *
  obtain ⟨t, n⟩ := swept
  obtain rfl : n = s.dead.length := freed
  refine Prod.ext ?_ rfl
  have bits : t.allocated = s.allocated.inter s.marks := by
    refine Bitmap.ext upTo.size fun i => ?_
    rw [upTo.get_allocated, Bitmap.get_inter]
    by_cases dead : s.isDead i = true
    · have bound : i < s.allocated.words.size * 64 := Nat.lt_of_lt_of_le (within i dead) all
      obtain ⟨-, unmarked⟩ := Bool.and_eq_true_iff.1 dead
      simp_all
    · cases inUse : s.allocated.get i <;> simp_all [isDead]
  have words : t.contents = s.contents.keep fun word => !s.isDead (s.blockOfWord word) := by
    refine Words.ext fun word => ?_
    rw [upTo.get_contents, Words.get_keep]
    by_cases dead : s.isDead (s.blockOfWord word) = true
    · simp [dead, Nat.lt_of_lt_of_le (within _ dead) all]
    · simp [dead]
  obtain ⟨page', allocated', marks', used', cursor', contents'⟩ := t
  obtain rfl : page' = s.page := page
  obtain rfl : marks' = s.marks := marks
  obtain rfl : used' = s.used := used
  obtain rfl : allocated' = _ := bits
  obtain rfl : contents' = _ := words
  rfl

end Slab

end MarkSweep
