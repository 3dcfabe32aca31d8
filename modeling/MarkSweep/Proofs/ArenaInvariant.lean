import MarkSweep.Arena.Sweep
import MarkSweep.Heap.Retained
import MarkSweep.Proofs.DirectorySlots
import MarkSweep.Proofs.SlabInvariant

set_option autoImplicit false

namespace MarkSweep

def Page.Apart (p q : Page) : Prop := p.limit ≤ q.base ∨ q.limit ≤ p.base

theorem Page.Apart.symm {p q : Page} (apart : p.Apart q) : q.Apart p := Or.symm apart

theorem Page.Apart.base_ne {p q : Page} (apart : p.Apart q) (hp : 0 < p.size) (hq : 0 < q.size) :
    p.base ≠ q.base := by
  intro same
  unfold Apart limit at apart
  lia

namespace Arena

def page? (a : Arena) (i : Nat) : Option Page := a.slabs[i]?.map (·.page)

structure Sound (a : Arena) : Prop where
  slab : ∀ s ∈ a.slabs, s.Sound
  apart : ∀ i j p q, a.page? i = some p → a.page? j = some q → i ≠ j → p.Apart q
  numbered : ∀ i p, a.page? i = some p → p.id < a.mapped
  directory : a.directory.Lists fun p => ∃ i, a.page? i = some p
  byBase : ∀ (b : Addr) (i : Nat), a.byBase[b]? = some i ↔ ∃ p, a.page? i = some p ∧ p.base = b
  roomy : ∀ c i, i ∈ a.roomyIn c →
    ∃ p, a.page? i = some p ∧ p.kind = .small c.kind ∧ p.blockSize = c.blockSize

theorem page?_eq_some {a : Arena} {i : Nat} {s : Slab} (found : a.slabs[i]? = some s) :
    a.page? i = some s.page := by
  rw [page?, found]
  rfl

theorem exists_of_page?_eq_some {a : Arena} {i : Nat} {p : Page} (found : a.page? i = some p) :
    ∃ s, a.slabs[i]? = some s ∧ s.page = p := by
  simpa [page?] using found

theorem sound_new (hugeThreshold heapLimit : Nat) : (Arena.new hugeThreshold heapLimit).Sound where
  slab := by simp [new]
  apart := by simp [new, page?]
  numbered := by simp [new, page?]
  directory := by
    have : (fun p => ∃ i, (Arena.new hugeThreshold heapLimit).page? i = some p) =
        fun _ => False := by
      funext p
      simp [new, page?]
    rw [this]
    exact Directory.lists_empty
  byBase := by simp [new, page?]
  roomy := by simp [new, roomyIn]

/-- What matters of an arena besides the contents of its slabs is which pages it has. -/
theorem sound_of_same_pages {a b : Arena} (sound : a.Sound) (slab : ∀ s ∈ b.slabs, s.Sound)
    (pages : b.page? = a.page?) (mapped : b.mapped = a.mapped)
    (directory : b.directory = a.directory) (byBase : b.byBase = a.byBase)
    (roomy : ∀ c i, i ∈ b.roomyIn c → i ∈ a.roomyIn c) : b.Sound where
  slab := slab
  apart := by
    rw [pages]
    exact sound.apart
  numbered := by
    rw [pages, mapped]
    exact sound.numbered
  directory := by
    rw [pages, directory]
    exact sound.directory
  byBase := by
    rw [pages, byBase]
    exact sound.byBase
  roomy := by
    intro c i h
    rw [pages]
    exact sound.roomy c i (roomy c i h)

theorem page?_setIfInBounds {a b : Arena} {i : Nat} {s t : Slab} (found : a.slabs[i]? = some s)
    (slabs : b.slabs = a.slabs.setIfInBounds i t) (same : t.page = s.page) :
    b.page? = a.page? := by
  funext j
  simp only [page?, slabs, Array.getElem?_setIfInBounds]
  by_cases h : i = j
  · subst h
    have inside : i < a.slabs.size := Array.getElem?_eq_some_iff.1 found |>.1
    rw [if_pos rfl, if_pos inside, found]
    exact congrArg some same
  · rw [if_neg h]

theorem slab_sound_of_setIfInBounds {a b : Arena} {i : Nat} {t : Slab} (sound : a.Sound)
    (slabs : b.slabs = a.slabs.setIfInBounds i t) (ht : t.Sound) : ∀ s ∈ b.slabs, s.Sound := by
  intro s hs
  rw [slabs] at hs
  obtain hs | rfl := Array.mem_or_eq_of_mem_setIfInBounds hs
  · exact sound.slab s hs
  · exact ht

theorem holds_iff {a : Arena} {b : Block} : a.Holds b ↔
    ∃ (i : Nat) (s : Slab) (k : Nat), a.slabs[i]? = some s ∧ s.isAllocated k = true ∧
      b = s.block k := by
  constructor
  · rintro ⟨s, hs, k, allocated, rfl⟩
    obtain ⟨i, found⟩ := Array.getElem?_of_mem hs
    exact ⟨i, s, k, found, allocated, rfl⟩
  · rintro ⟨i, s, k, found, allocated, rfl⟩
    exact ⟨s, Array.mem_of_getElem? found, k, allocated, rfl⟩

instance (a : Arena) (b : Block) : Decidable (a.Holds b) :=
  decidable_of_iff
    (∃ s ∈ a.slabs.toList, ∃ k ∈ List.range s.page.blockCount,
      s.isAllocated k = true ∧ b = s.block k)
    ⟨fun ⟨s, hs, k, _, held⟩ => ⟨s, Array.mem_toList_iff.1 hs, k, held⟩,
      fun ⟨s, hs, k, held⟩ => ⟨s, Array.mem_toList_iff.2 hs, k,
        List.mem_range.2 (Slab.isAllocated_iff.1 held.1).1, held⟩⟩

section Queries

variable {a : Arena} {i : Nat} {s : Slab} {x : Addr}

theorem slab_sound (sound : a.Sound) (found : a.slabs[i]? = some s) : s.Sound :=
  sound.slab s (Array.mem_of_getElem? found)

theorem position_unique (sound : a.Sound) {j : Nat} {t : Slab} (hs : a.slabs[i]? = some s)
    (ht : a.slabs[j]? = some t) (hsx : s.page.contains x = true)
    (htx : t.page.contains x = true) : i = j := by
  by_contra different
  have apart := sound.apart i j _ _ (page?_eq_some hs) (page?_eq_some ht) different
  obtain ⟨slow, shigh⟩ := Page.contains_iff.1 hsx
  obtain ⟨tlow, thigh⟩ := Page.contains_iff.1 htx
  obtain h | h := apart
  · exact absurd (Nat.lt_of_lt_of_le shigh (Nat.le_trans h tlow)) (Nat.lt_irrefl _)
  · exact absurd (Nat.lt_of_lt_of_le thigh (Nat.le_trans h slow)) (Nat.lt_irrefl _)

theorem byBase_eq_some (sound : a.Sound) (found : a.slabs[i]? = some s) :
    a.byBase[s.page.base]? = some i :=
  (sound.byBase _ _).2 ⟨s.page, page?_eq_some found, rfl⟩

theorem slab?_eq_some (sound : a.Sound) (found : a.slabs[i]? = some s) :
    a.slab? s.page = some s := by
  rw [slab?, byBase_eq_some sound found]
  exact found

theorem lookup_eq_some (sound : a.Sound) {p : Page} :
    a.directory.lookup x = some p ↔
      ∃ (i : Nat) (s : Slab), a.slabs[i]? = some s ∧ s.page = p ∧ p.contains x = true := by
  rw [Directory.lookup_eq_some_iff sound.directory]
  · constructor
    · rintro ⟨⟨i, hp⟩, inside⟩
      obtain ⟨s, found, same⟩ := exists_of_page?_eq_some hp
      exact ⟨i, s, found, same, inside⟩
    · rintro ⟨i, s, found, rfl, inside⟩
      exact ⟨⟨i, page?_eq_some found⟩, inside⟩
  · rintro p ⟨i, hp⟩
    obtain ⟨s, found, rfl⟩ := exists_of_page?_eq_some hp
    exact (slab_sound sound found).cut.whole

theorem isAllocated_page (sound : a.Sound) (found : a.slabs[i]? = some s) (k : Nat) :
    a.isAllocated s.page k = s.isAllocated k := by
  rw [isAllocated, slab?_eq_some sound found]
  rfl

theorem blockId?_eq_some (sound : a.Sound) (found : a.slabs[i]? = some s) {k : Nat} :
    a.blockId? s.page x = some k ↔ s.isAllocated k = true ∧ s.page.blockAddr k = x := by
  have cut := (slab_sound sound found).cut
  rw [blockId?, Option.filter_eq_some_iff, isAllocated_page sound found]
  constructor
  · rintro ⟨start, allocated⟩
    have bound := (Slab.isAllocated_iff.1 allocated).1
    exact ⟨allocated, ((Page.blockStarting?_eq_some_iff cut bound).1 start).symm⟩
  · rintro ⟨allocated, start⟩
    have bound := (Slab.isAllocated_iff.1 allocated).1
    exact ⟨(Page.blockStarting?_eq_some_iff cut bound).2 start.symm, allocated⟩

theorem resolveInterior_eq_some (sound : a.Sound) (found : a.slabs[i]? = some s) {y : Addr} :
    a.resolveInterior s.page x = some y ↔ ∃ k, s.isAllocated k = true ∧ s.page.blockAddr k = y ∧
      (s.block k).Contains x := by
  have cut := (slab_sound sound found).cut
  rw [resolveInterior, Option.map_eq_some_iff]
  refine exists_congr fun k => ?_
  rw [Option.filter_eq_some_iff, isAllocated_page sound found]
  constructor
  · rintro ⟨⟨around, allocated⟩, start⟩
    have bound := (Slab.isAllocated_iff.1 allocated).1
    exact ⟨allocated, start, (Page.blockAround?_eq_some_iff cut bound).1 around⟩
  · rintro ⟨allocated, start, inside⟩
    have bound := (Slab.isAllocated_iff.1 allocated).1
    exact ⟨⟨(Page.blockAround?_eq_some_iff cut bound).2 inside, allocated⟩, start⟩

theorem contains_of_block (sound : a.Sound) (found : a.slabs[i]? = some s) {k : Nat}
    (allocated : s.isAllocated k = true) (inside : (s.block k).Contains x) :
    s.page.contains x = true :=
  Page.contains_of_mem_block (slab_sound sound found).cut (Slab.isAllocated_iff.1 allocated).1
    inside.1 inside.2

theorem block_contains_start (sound : a.Sound) (found : a.slabs[i]? = some s) (k : Nat) :
    (s.block k).Contains (s.page.blockAddr k) :=
  ⟨Nat.le_refl _, Nat.lt_add_of_pos_right (slab_sound sound found).cut.blockSize_pos⟩

theorem contains_blockAddr (sound : a.Sound) (found : a.slabs[i]? = some s) {k : Nat}
    (allocated : s.isAllocated k = true) : s.page.contains (s.page.blockAddr k) = true :=
  contains_of_block sound found allocated (block_contains_start sound found k)

theorem position?_eq_some (sound : a.Sound) (found : a.slabs[i]? = some s)
    (inside : s.page.contains x = true) : a.position? x = some i := by
  obtain ⟨bound, hi⟩ := Array.getElem?_eq_some_iff.1 found
  rw [position?, Array.findIdx?_eq_some_iff_getElem]
  refine ⟨bound, by rw [hi]; exact inside, fun j hj => ?_⟩
  have hj' : j < a.slabs.size := Nat.lt_trans hj bound
  intro other
  have same := position_unique sound found (Array.getElem?_eq_getElem hj') inside other
  omega

theorem read_eq (sound : a.Sound) (found : a.slabs[i]? = some s)
    (inside : s.page.contains x = true) : a.read x = s.read x := by
  have first : a.slabs.getD i default = s := by
    rw [Array.getD_eq_getD_getElem?, found]
    rfl
  rw [read, position?_eq_some sound found inside]
  exact congrArg (·.read x) first

theorem read_of_contains (sound : a.Sound) (found : a.slabs[i]? = some s) {k : Nat}
    (allocated : s.isAllocated k = true) (inside : (s.block k).Contains x) :
    a.read x = s.read x :=
  read_eq sound found (contains_of_block sound found allocated inside)

theorem eq_of_contains (sound : a.Sound) {b c : Block} (hb : a.Holds b) (hc : a.Holds c)
    (inb : b.Contains x) (inc : c.Contains x) : b = c := by
  obtain ⟨i, s, k, found, allocated, rfl⟩ := holds_iff.1 hb
  obtain ⟨j, t, l, found', allocated', rfl⟩ := holds_iff.1 hc
  have inside := contains_of_block sound found allocated inb
  have inside' := contains_of_block sound found' allocated' inc
  obtain rfl := position_unique sound found found' inside inside'
  obtain rfl := Option.some.inj (found.symm.trans found')
  have cut := (slab_sound sound found).cut
  have around := (Page.blockAround?_eq_some_iff cut (Slab.isAllocated_iff.1 allocated).1).2 inb
  have around' := (Page.blockAround?_eq_some_iff cut (Slab.isAllocated_iff.1 allocated').1).2 inc
  rw [Option.some.inj (around.symm.trans around')]

end Queries

/-- Whether a block of an arena is in another one too, on the same page and with the same words. -/
def Carries (a b : Arena) (c : Block) : Prop :=
  ∀ (i : Nat) (s : Slab) (k : Nat), a.slabs[i]? = some s → s.isAllocated k = true →
    c = s.block k → ∃ (j : Nat) (t : Slab), b.slabs[j]? = some t ∧ t.page = s.page ∧
      t.isAllocated k = true ∧ ∀ x, c.Contains x → t.read x = s.read x

namespace Carries

variable {a b d : Arena} {c : Block}

theorem holds (carries : a.Carries b c) (held : a.Holds c) : b.Holds c := by
  obtain ⟨i, s, k, found, allocated, rfl⟩ := holds_iff.1 held
  obtain ⟨j, t, there, page, still, -⟩ := carries i s k found allocated rfl
  exact holds_iff.2 ⟨j, t, k, there, still, by rw [Slab.block, Slab.block, page]⟩

theorem read_eq (carries : a.Carries b c) (sound : a.Sound) (sound' : b.Sound) (held : a.Holds c)
    {x : Addr} (inside : c.Contains x) : b.read x = a.read x := by
  obtain ⟨i, s, k, found, allocated, rfl⟩ := holds_iff.1 held
  obtain ⟨j, t, there, page, still, same⟩ := carries i s k found allocated rfl
  have inside' : (t.block k).Contains x := by
    rw [Slab.block, page]
    exact inside
  rw [read_of_contains sound found allocated inside, read_of_contains sound' there still inside',
    same x inside]

theorem trans (one : a.Carries b c) (two : b.Carries d c) : a.Carries d c := by
  intro i s k found allocated here
  obtain ⟨j, t, there, page, still, same⟩ := one i s k found allocated here
  have here' : c = t.block k := by rw [here, Slab.block, Slab.block, page]
  obtain ⟨l, u, there', page', still', same'⟩ := two j t k there still here'
  exact ⟨l, u, there', page'.trans page, still',
    fun x inside => (same' x inside).trans (same x inside)⟩

end Carries

end Arena

end MarkSweep
