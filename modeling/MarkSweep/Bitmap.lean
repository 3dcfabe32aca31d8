import MarkSweep.Word

set_option autoImplicit false

namespace MarkSweep

def wordsFor (bits : Nat) : Nat := (bits + 63) / 64

structure Bitmap where
  size : Nat
  words : Array UInt64
  words_size : words.size = wordsFor size
deriving DecidableEq, Repr

namespace Bitmap

def empty (size : Nat) : Bitmap where
  size := size
  words := Array.replicate (wordsFor size) 0
  words_size := Array.size_replicate

instance : Inhabited Bitmap := ⟨empty 0⟩

def word (b : Bitmap) (k : Nat) : UInt64 := b.words.getD k 0

def get (b : Bitmap) (i : Nat) : Bool := Word.bit (b.word (i / 64)) (i % 64)

def set (b : Bitmap) (i : Nat) : Bitmap :=
  if i < b.size then
    { b with
      words := b.words.modify (i / 64) (Word.withBit · (i % 64))
      words_size := by rw [Array.size_modify]; exact b.words_size }
  else b

def testAndSet (b : Bitmap) (i : Nat) : Bool × Bitmap :=
  if i < b.size && !b.get i then (true, b.set i) else (false, b)

def clear (b : Bitmap) : Bitmap := empty b.size

def inter (b c : Bitmap) : Bitmap :=
  { b with
    words := b.words.mapIdx fun k w => w &&& c.word k
    words_size := by rw [Array.size_mapIdx]; exact b.words_size }

def members (b : Bitmap) : List Nat := (List.range b.size).filter b.get

def count (b : Bitmap) : Nat := (List.range b.size).countP b.get

/-- The least clear entry at or after `i`, found a word at a time. -/
def clearFrom? (b : Bitmap) (i : Nat) : Option Nat :=
  if i < b.size then
    match Word.clearFrom? (b.word (i / 64)) (i % 64) with
    | some j =>
      let k := i / 64 * 64 + j
      if k < b.size then some k else none
    | none => b.clearFrom? ((i / 64 + 1) * 64)
  else none
termination_by b.size - i

def text (b : Bitmap) : String := s!"MarkBitmap({b.count}/{b.size})"

@[simp] theorem size_empty (n : Nat) : (empty n).size = n := rfl

@[simp] theorem get_empty (n i : Nat) : (empty n).get i = false := by
  simp only [get, word, empty, Array.getD_eq_getD_getElem?, Array.getElem?_replicate]
  split <;> exact Word.bit_zero _

@[simp] theorem size_set (b : Bitmap) (i : Nat) : (b.set i).size = b.size := by
  unfold set; split <;> rfl

theorem get_at (b : Bitmap) (k : Nat) {i : Nat} (low : i < 64) :
    b.get (k * 64 + i) = Word.bit (b.word k) i := by
  have quotient : (k * 64 + i) / 64 = k := by omega
  have rest : (k * 64 + i) % 64 = i := by omega
  rw [get, quotient, rest]

theorem word_set (b : Bitmap) {i : Nat} (h : i < b.size) (k : Nat) :
    (b.set i).word k = if i / 64 = k then Word.withBit (b.word k) (i % 64) else b.word k := by
  have hk : i / 64 < b.words.size := by rw [b.words_size, wordsFor]; omega
  simp only [set, h, if_true, word, Array.getD_eq_getD_getElem?, Array.getElem?_modify]
  split
  · next e => subst e; simp [hk]
  · rfl

theorem get_set (b : Bitmap) {i : Nat} (h : i < b.size) (j : Nat) :
    (b.set i).get j = (b.get j || decide (i = j)) := by
  simp only [get, word_set b h]
  split
  · next e =>
    rw [Word.bit_withBit _ (Nat.mod_lt _ (by decide))]
    congr 1
    rw [decide_eq_decide]
    omega
  · next e =>
    have hij : ¬ i = j := fun hij => e (by rw [hij])
    simp [hij]

theorem set_of_size_le (b : Bitmap) {i : Nat} (h : b.size ≤ i) : b.set i = b := by
  rw [set, if_neg (by omega)]

@[simp] theorem size_inter (b c : Bitmap) : (b.inter c).size = b.size := rfl

theorem get_inter (b c : Bitmap) (i : Nat) : (b.inter c).get i = (b.get i && c.get i) := by
  simp only [get, inter, word, Array.getD_eq_getD_getElem?, Array.getElem?_mapIdx]
  cases b.words[i / 64]? with
  | none => simp [Word.bit_zero]
  | some w => simp [Word.bit_and]

@[simp] theorem size_clear (b : Bitmap) : b.clear.size = b.size := rfl

@[simp] theorem get_clear (b : Bitmap) (i : Nat) : b.clear.get i = false := get_empty _ _

@[ext] theorem ext {b c : Bitmap} (hsize : b.size = c.size) (h : ∀ i, b.get i = c.get i) :
    b = c := by
  obtain ⟨n, v, hv⟩ := b
  obtain ⟨m, w, hw⟩ := c
  obtain rfl : n = m := hsize
  have hvw : v.size = w.size := hv.trans hw.symm
  congr
  apply Array.ext hvw
  intro k hk hk'
  apply Word.ext
  intro i hi
  have here := h (k * 64 + i)
  rw [get_at _ k hi, get_at _ k hi] at here
  simpa [word, hk, hk'] using here

theorem mem_members {b : Bitmap} {i : Nat} : i ∈ b.members ↔ i < b.size ∧ b.get i = true := by
  simp [members]

theorem count_eq_length_members (b : Bitmap) : b.count = b.members.length := by
  rw [count, members, List.countP_eq_length_filter]

theorem fst_testAndSet (b : Bitmap) (i : Nat) :
    (b.testAndSet i).1 = (decide (i < b.size) && !b.get i) := by
  unfold testAndSet; split <;> simp_all

theorem snd_testAndSet (b : Bitmap) (i : Nat) : (b.testAndSet i).2 = b.set i := by
  unfold testAndSet
  split
  · rfl
  · next h =>
    by_cases hi : i < b.size
    · have hb : b.get i = true := by simpa [hi] using h
      apply ext (by simp)
      intro j
      rw [get_set b hi]
      by_cases hij : i = j
      · subst hij; simp [hb]
      · simp [hij]
    · exact (set_of_size_le b (by omega)).symm

theorem clearFrom?_eq_some {b : Bitmap} {i j : Nat} (h : b.clearFrom? i = some j) :
    i ≤ j ∧ j < b.size ∧ b.get j = false ∧ ∀ k, i ≤ k → k < j → b.get k = true := by
  fun_induction clearFrom? b i with
  | case1 i hi m hm k hk =>
    obtain rfl : k = j := by simpa using h
    obtain ⟨h1, h2, h3, h4⟩ := Word.clearFrom?_eq_some hm
    have hkd : k = i / 64 * 64 + m := rfl
    have hq : k / 64 = i / 64 := by omega
    have hr : k % 64 = m := by omega
    refine ⟨by omega, hk, by rw [get, hq, hr]; exact h3, fun l hl hlk => ?_⟩
    have hq' : l / 64 = i / 64 := by omega
    rw [get, hq']
    exact h4 (l % 64) (by omega) (by omega)
  | case2 => simp at h
  | case3 i hi hm ih =>
    obtain ⟨h1, h2, h3, h4⟩ := ih h
    refine ⟨by omega, h2, h3, fun l hl hlj => ?_⟩
    by_cases hq : l / 64 = i / 64
    · rw [get, hq]
      exact Word.clearFrom?_eq_none hm (by omega) (by omega)
    · exact h4 l (by omega) hlj
  | case4 => simp at h

theorem clearFrom?_eq_none {b : Bitmap} {i : Nat} (h : b.clearFrom? i = none) {k : Nat}
    (hk : i ≤ k) (hsize : k < b.size) : b.get k = true := by
  fun_induction clearFrom? b i with
  | case1 => simp at h
  | case2 i hi m hm j hj =>
    obtain ⟨h1, h2, h3, h4⟩ := Word.clearFrom?_eq_some hm
    have hjd : j = i / 64 * 64 + m := rfl
    have hq : k / 64 = i / 64 := by omega
    rw [get, hq]
    exact h4 (k % 64) (by omega) (by omega)
  | case3 i hi hm ih =>
    by_cases hq : k / 64 = i / 64
    · rw [get, hq]
      exact Word.clearFrom?_eq_none hm (by omega) (by omega)
    · exact ih h (by omega)
  | case4 i hi => omega

end Bitmap

end MarkSweep
