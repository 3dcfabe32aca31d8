import MarkSweep.Mark.Phase
import MarkSweep.Proofs.ArenaInvariant

set_option autoImplicit false

namespace MarkSweep

namespace Arena

def markBit (a : Arena) (i k : Nat) : Bool := a.slabs[i]?.any fun s => s.marks.get k

def Places (a : Arena) (x : Addr) (i k : Nat) : Prop :=
  ∃ s, a.slabs[i]? = some s ∧ s.isAllocated k = true ∧ s.page.blockAddr k = x

def Starts (a : Arena) (x : Addr) : Prop := ∃ i k, a.Places x i k

def Marks (a : Arena) (x : Addr) : Prop := ∃ i k, a.Places x i k ∧ a.markBit i k = true

/-- Whether an arena is another one with the blocks at some addresses marked besides. -/
def MarkedAt (a : Arena) (xs : List Addr) (b : Arena) : Prop :=
  b.clearMarks = a.clearMarks ∧
    ∀ i k, b.markBit i k = true ↔ a.markBit i k = true ∨ ∃ x ∈ xs, a.Places x i k

theorem getElem?_slabs_clearMarks (a : Arena) (i : Nat) :
    a.clearMarks.slabs[i]? = a.slabs[i]?.map fun s => { s with marks := s.marks.clear } := by
  simp [clearMarks]

theorem slab?_clearMarks (a : Arena) (p : Page) :
    a.clearMarks.slab? p = (a.slab? p).map fun s => { s with marks := s.marks.clear } := by
  have byBase : a.clearMarks.byBase = a.byBase := rfl
  unfold slab?
  rw [byBase]
  cases a.byBase[p.base]? with
  | none => rfl
  | some i => exact getElem?_slabs_clearMarks a i

theorem clearMarks_clearMarks (a : Arena) : a.clearMarks.clearMarks = a.clearMarks := by
  simp [clearMarks, Bitmap.clear]

theorem references_clearMarks (around : Surroundings) (a : Arena) (x : Addr) :
    a.clearMarks.references around x = a.references around x := by
  have directory : a.clearMarks.directory = a.directory := rfl
  unfold references
  rw [directory]
  cases a.directory.lookup x with
  | none => rfl
  | some p =>
    simp only [slab?_clearMarks]
    cases a.slab? p <;> rfl

theorem places_clearMarks (a : Arena) (x : Addr) (i k : Nat) :
    a.clearMarks.Places x i k ↔ a.Places x i k := by
  unfold Places
  rw [getElem?_slabs_clearMarks]
  cases a.slabs[i]? with
  | none => simp
  | some s => simp [Slab.isAllocated]

theorem holds_clearMarks (a : Arena) (b : Block) : a.clearMarks.Holds b ↔ a.Holds b := by
  simp [Holds, clearMarks, Slab.isAllocated, Slab.block]

section Congruence

variable {a b : Arena} (same : b.clearMarks = a.clearMarks)
include same

theorem references_congr (around : Surroundings) (x : Addr) :
    b.references around x = a.references around x := by
  rw [← references_clearMarks, same, references_clearMarks]

theorem places_congr (x : Addr) (i k : Nat) : b.Places x i k ↔ a.Places x i k := by
  rw [← places_clearMarks, same, places_clearMarks]

theorem starts_congr (x : Addr) : b.Starts x ↔ a.Starts x :=
  exists_congr fun i => exists_congr fun k => places_congr same x i k

theorem holds_congr (c : Block) : b.Holds c ↔ a.Holds c := by
  rw [← holds_clearMarks, same, holds_clearMarks]

theorem exists_marks_congr {i : Nat} {s : Slab} (found : a.slabs[i]? = some s) :
    ∃ marks : Bitmap, b.slabs[i]? = some { s with marks } ∧ marks.size = s.marks.size := by
  have both := congrArg (·.slabs[i]?) same
  simp only [getElem?_slabs_clearMarks, found, Option.map_some] at both
  obtain ⟨t, ht, clear⟩ := Option.map_eq_some_iff.1 both
  rw [Slab.mk.injEq] at clear
  obtain ⟨page, allocated, marks, used, cursor, contents⟩ := clear
  refine ⟨t.marks, ?_, ?_⟩
  swap
  · rw [← Bitmap.size_clear t.marks, marks, Bitmap.size_clear]
  rw [ht, ← page, ← allocated, ← used, ← cursor, ← contents]

theorem sound_congr (sound : a.Sound) : b.Sound := by
  have pages : b.page? = a.page? := by
    have key : ∀ c : Arena, c.clearMarks.page? = c.page? := by
      intro c
      funext i
      simp [page?, getElem?_slabs_clearMarks, Option.map_map, Function.comp_def]
    rw [← key, same, key]
  have fields := same
  simp only [clearMarks, Arena.mk.injEq] at fields
  obtain ⟨-, -, directory, -, byBase, roomy, -, -, -, mapped⟩ := fields
  refine sound_of_same_pages sound ?_ pages mapped directory byBase ?_
  · intro t ht
    obtain ⟨i, bound, hi⟩ := Array.mem_iff_getElem.1 ht
    have found : b.slabs[i]? = some t := by rw [Array.getElem?_eq_getElem bound, hi]
    obtain ⟨s, hs, -⟩ := exists_of_page?_eq_some (pages ▸ page?_eq_some found)
    obtain ⟨marks, ht', size⟩ := exists_marks_congr same hs
    obtain rfl : t = { s with marks } := Option.some.inj (found.symm.trans ht')
    have whole := slab_sound sound hs
    exact Slab.sound_remark whole (size.trans whole.marks_size)
  · intro c i h
    rw [roomyIn, ← roomy]
    exact h

theorem eq_of_markBit_eq (bits : ∀ i k, b.markBit i k = a.markBit i k) : b = a := by
  have fields := same
  simp only [clearMarks, Arena.mk.injEq] at fields
  have slabs : b.slabs = a.slabs := by
    apply Array.ext_getElem?
    intro i
    cases hs : a.slabs[i]? with
    | none =>
      have both := congrArg (·.slabs[i]?) same
      simpa [getElem?_slabs_clearMarks, hs] using both
    | some s =>
      obtain ⟨marks, ht, size⟩ := exists_marks_congr same hs
      rw [ht]
      have equal : marks = s.marks := by
        refine Bitmap.ext size fun k => ?_
        have := bits i k
        rwa [markBit, markBit, ht, hs] at this
      rw [equal]
  obtain ⟨hugeThreshold, heapLimit, directory, -, byBase, roomy, privateBytes, liveBlocks,
    liveBytes, mapped⟩ := fields
  obtain ⟨⟩ := a
  obtain ⟨⟩ := b
  simp_all

end Congruence

section Setting

variable {a : Arena} {x : Addr} {i k : Nat}

theorem places_unique (sound : a.Sound) {j l : Nat} (h : a.Places x i k) (h' : a.Places x j l) :
    i = j ∧ k = l := by
  obtain ⟨s, hs, allocated, hx⟩ := h
  obtain ⟨t, ht, allocated', hx'⟩ := h'
  have inside := contains_blockAddr sound hs allocated
  have inside' := contains_blockAddr sound ht allocated'
  rw [hx] at inside
  rw [hx'] at inside'
  obtain rfl := position_unique sound hs ht inside inside'
  obtain rfl := Option.some.inj (hs.symm.trans ht)
  exact ⟨rfl, Page.blockAddr_inj (slab_sound sound hs).cut (hx.trans hx'.symm)⟩

theorem clearMarks_remark {s : Slab} (found : a.slabs[i]? = some s) {marks : Bitmap}
    (size : marks.size = s.marks.size) :
    { a with slabs := a.slabs.setIfInBounds i { s with marks } }.clearMarks = a.clearMarks := by
  have slabs : ∀ j : Nat, (a.slabs.setIfInBounds i { s with marks })[j]?.map
      (fun t : Slab => { t with marks := t.marks.clear }) =
        a.slabs[j]?.map (fun t : Slab => { t with marks := t.marks.clear }) := by
    intro j
    rw [Array.getElem?_setIfInBounds]
    by_cases h : i = j
    · subst h
      rw [if_pos rfl, if_pos (Array.getElem?_eq_some_iff.1 found).1, found]
      simp [Bitmap.clear, size]
    · rw [if_neg h]
  unfold clearMarks
  congr 1
  apply Array.ext_getElem?
  intro j
  rw [Array.getElem?_map, Array.getElem?_map]
  exact slabs j

theorem clearMarks_testAndMark (a : Arena) (p : Page) (k : Nat) :
    (a.testAndMark p k).2.clearMarks = a.clearMarks := by
  unfold testAndMark
  cases a.byBase[p.base]? with
  | none => rfl
  | some i =>
    cases found : a.slabs[i]? with
    | none => simp only [found]
    | some s =>
      have size : (s.marks.testAndSet k).2.size = s.marks.size := by
        rw [Bitmap.snd_testAndSet, Bitmap.size_set]
      simp only [found]
      exact clearMarks_remark found size

theorem testAndMark_eq (sound : a.Sound) {s : Slab} (found : a.slabs[i]? = some s)
    (allocated : s.isAllocated k = true) :
    (a.testAndMark s.page k).1 = !a.markBit i k ∧
      ∀ j l, (a.testAndMark s.page k).2.markBit j l =
        (a.markBit j l || decide (i = j ∧ k = l)) := by
  have whole := slab_sound sound found
  have bound : k < s.marks.size := whole.marks_size ▸ (Slab.isAllocated_iff.1 allocated).1
  have step : a.testAndMark s.page k = ((s.marks.testAndSet k).1, { a with
      slabs := a.slabs.setIfInBounds i { s with marks := (s.marks.testAndSet k).2 } }) := by
    unfold testAndMark
    rw [byBase_eq_some sound found]
    simp only [found]
  rw [step, Bitmap.fst_testAndSet, Bitmap.snd_testAndSet]
  constructor
  · simp [markBit, found, bound]
  · intro j l
    simp only [markBit, Array.getElem?_setIfInBounds]
    by_cases h : i = j
    · subst h
      rw [if_pos rfl, if_pos (Array.getElem?_eq_some_iff.1 found).1, found]
      simp [Bitmap.get_set _ bound]
    · simp [h]

theorem starts_iff_holds {a : Arena} {x : Addr} : a.Starts x ↔ ∃ b, a.Holds b ∧ b.addr = x := by
  constructor
  · rintro ⟨i, k, s, found, allocated, start⟩
    exact ⟨s.block k, ⟨s, Array.mem_of_getElem? found, k, allocated, rfl⟩, start⟩
  · rintro ⟨b, ⟨s, hs, k, allocated, rfl⟩, start⟩
    obtain ⟨i, found⟩ := Array.getElem?_of_mem hs
    exact ⟨i, k, s, found, allocated, start⟩

theorem markedAt_self (a : Arena) : a.MarkedAt [] a := ⟨rfl, by simp⟩

/-- Marks on blocks that were marked already change nothing. -/
theorem markedAt_of_marks {xs : List Addr} (sound : a.Sound) (marked : ∀ x ∈ xs, a.Marks x) :
    a.MarkedAt xs a := by
  refine ⟨rfl, fun i k => ⟨.inl, ?_⟩⟩
  rintro (h | ⟨x, hx, place⟩)
  · exact h
  · obtain ⟨j, l, place', bit⟩ := marked x hx
    obtain ⟨rfl, rfl⟩ := places_unique sound place place'
    exact bit

theorem MarkedAt.congr {b : Arena} {xs ys : List Addr} (marked : a.MarkedAt xs b)
    (same : ∀ x, x ∈ xs ↔ x ∈ ys) : a.MarkedAt ys b := by
  refine ⟨marked.1, fun i k => (marked.2 i k).trans ?_⟩
  simp only [same]

theorem MarkedAt.unique {b c : Arena} {xs : List Addr} (hb : a.MarkedAt xs b)
    (hc : a.MarkedAt xs c) : b = c := by
  refine eq_of_markBit_eq (hb.1.trans hc.1.symm) fun i k => ?_
  have := (hb.2 i k).trans (hc.2 i k).symm
  exact Bool.eq_iff_iff.2 this

theorem MarkedAt.marks_iff {b : Arena} {xs : List Addr} (marked : a.MarkedAt xs b) {y : Addr}
    (starts : a.Starts y) : b.Marks y ↔ a.Marks y ∨ y ∈ xs := by
  constructor
  · rintro ⟨i, k, place, bit⟩
    have place' := (places_congr marked.1 y i k).1 place
    obtain old | ⟨x, hx, hx'⟩ := (marked.2 i k).1 bit
    · exact .inl ⟨i, k, place', old⟩
    · obtain ⟨s, hs, -, start⟩ := place'
      obtain ⟨t, ht, -, start'⟩ := hx'
      obtain rfl := Option.some.inj (hs.symm.trans ht)
      exact .inr (start ▸ start' ▸ hx)
  · rintro (⟨i, k, place, bit⟩ | hy)
    · exact ⟨i, k, (places_congr marked.1 y i k).2 place, (marked.2 i k).2 (.inl bit)⟩
    · obtain ⟨i, k, place⟩ := starts
      exact ⟨i, k, (places_congr marked.1 y i k).2 place, (marked.2 i k).2 (.inr ⟨y, hy, place⟩)⟩

end Setting

end Arena

namespace Marker

open Arena

variable {a : Arena} {xs : List Addr} {m : Marker} {x : Addr}

theorem clearMarks_claim (p : Page) (k : Nat) (x : Addr) (m : Marker) :
    (m.claim p k x).2.arena.clearMarks = m.arena.clearMarks := by
  have same := clearMarks_testAndMark m.arena p k
  unfold claim
  cases marking : m.arena.testAndMark p k with
  | mk won b =>
    rw [marking] at same
    cases won <;> exact same

theorem clearMarks_markExact (x : Addr) (m : Marker) :
    (m.markExact x).2.arena.clearMarks = m.arena.clearMarks := by
  unfold markExact
  cases m.arena.directory.lookup x with
  | none => rfl
  | some p =>
    cases found : m.arena.blockId? p x with
    | none => simp only [found]
    | some k =>
      simp only [found]
      exact clearMarks_claim p k x m

theorem markExact_of_not_starts (sound : m.arena.Sound) (none_there : ¬ m.arena.Starts x) :
    m.markExact x = (false, m) := by
  unfold markExact
  cases found : m.arena.directory.lookup x with
  | none => rfl
  | some p =>
    obtain ⟨i, s, hs, rfl, -⟩ := (lookup_eq_some sound).1 found
    have missing : m.arena.blockId? s.page x = none := by
      refine Option.eq_none_iff_forall_ne_some.2 fun k hk => none_there ?_
      obtain ⟨allocated, start⟩ := (blockId?_eq_some sound hs).1 hk
      exact ⟨i, k, s, hs, allocated, start⟩
    simp only [missing]

theorem markExact_of_places (sound : m.arena.Sound) {i k : Nat} (place : m.arena.Places x i k) :
    ∃ s, m.arena.slabs[i]? = some s ∧ s.isAllocated k = true ∧
      m.markExact x = m.claim s.page k x := by
  obtain ⟨s, hs, allocated, start⟩ := place
  have inside := contains_blockAddr sound hs allocated
  rw [start] at inside
  refine ⟨s, hs, allocated, ?_⟩
  unfold markExact
  simp only [(lookup_eq_some sound).2 ⟨i, s, hs, rfl, inside⟩,
    (blockId?_eq_some sound hs).2 ⟨allocated, start⟩]

theorem markExact_of_marks (sound : m.arena.Sound) (marked : m.arena.Marks x) :
    m.markExact x = (false, m) := by
  obtain ⟨i, k, place, bit⟩ := marked
  obtain ⟨s, hs, allocated, step⟩ := markExact_of_places sound place
  obtain ⟨lost, bits⟩ := testAndMark_eq sound hs allocated
  have unchanged : (m.arena.testAndMark s.page k).2 = m.arena := by
    refine eq_of_markBit_eq (clearMarks_testAndMark _ _ _) fun j l => ?_
    rw [bits]
    by_cases h : i = j ∧ k = l
    · obtain ⟨rfl, rfl⟩ := h
      simp [bit]
    · simp [h]
  rw [step, claim]
  rw [bit] at lost
  cases marking : m.arena.testAndMark s.page k with
  | mk won b =>
    rw [marking] at lost unchanged
    obtain rfl : won = false := lost
    obtain rfl : b = m.arena := unchanged
    rfl

theorem markExact_of_not_marks (sound : a.Sound) (marked : a.MarkedAt xs m.arena)
    (starts : a.Starts x) (unmarked : ¬ a.Marks x) (new : x ∉ xs) :
    ∃ b, m.markExact x = (true, { arena := b, pending := m.pending.push x }) ∧
      a.MarkedAt (x :: xs) b := by
  have sound' := sound_congr marked.1 sound
  obtain ⟨i, k, place⟩ := starts
  have place' := (places_congr marked.1 x i k).2 place
  have clear : m.arena.markBit i k = false := by
    refine Bool.eq_false_iff.2 fun bit => ?_
    have := (marked.marks_iff ⟨i, k, place⟩).1 ⟨i, k, place', bit⟩
    exact this.elim unmarked new
  obtain ⟨s, hs, allocated, step⟩ := markExact_of_places sound' place'
  obtain ⟨won, bits⟩ := testAndMark_eq sound' hs allocated
  have same := clearMarks_testAndMark m.arena s.page k
  rw [clear] at won
  refine ⟨(m.arena.testAndMark s.page k).2, ?_, same.trans marked.1, fun j l => ?_⟩
  · rw [step, claim]
    cases marking : m.arena.testAndMark s.page k with
    | mk first b =>
      rw [marking] at won
      obtain rfl : first = true := won
      rfl
  · rw [bits, Bool.or_eq_true, marked.2, decide_eq_true_iff]
    have here : i = j ∧ k = l ↔ a.Places x j l := by
      constructor
      · rintro ⟨rfl, rfl⟩
        exact place
      · exact places_unique sound place
    rw [here]
    simp only [List.mem_cons, exists_eq_or_imp]
    exact or_assoc.trans (or_congr_right or_comm)

theorem markExact_cases (sound : a.Sound) (marked : a.MarkedAt xs m.arena) (x : Addr) :
    m.markExact x = (false, m) ∧ (a.Starts x → ¬ a.Marks x → x ∈ xs) ∨
      a.Starts x ∧ ¬ a.Marks x ∧ x ∉ xs ∧
        ∃ b, m.markExact x = (true, { arena := b, pending := m.pending.push x }) ∧
          a.MarkedAt (x :: xs) b := by
  have sound' := sound_congr marked.1 sound
  by_cases starts : a.Starts x
  · by_cases before : a.Marks x ∨ x ∈ xs
    · have there : m.arena.Marks x := (marked.marks_iff starts).2 before
      exact .inl ⟨markExact_of_marks sound' there, fun _ unmarked => before.resolve_left unmarked⟩
    · rw [not_or] at before
      exact .inr ⟨starts, before.1, before.2,
        markExact_of_not_marks sound marked starts before.1 before.2⟩
  · have none_there : ¬ m.arena.Starts x := fun h => starts ((starts_congr marked.1 x).1 h)
    exact .inl ⟨markExact_of_not_starts sound' none_there, fun h => absurd h starts⟩

end Marker

end MarkSweep
