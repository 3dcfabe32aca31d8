import MarkSweep.Proofs.MarkBits
import MarkSweep.Proofs.SlabCursor
import Mathlib.Data.List.Induction

set_option autoImplicit false

namespace MarkSweep

namespace Arena

def keptSlabs (a : Arena) : List Slab := (a.slabs.toList.map Slab.sweep).filter fun s => 0 < s.used

def releasedSlabs (a : Arena) : List Slab :=
  (a.slabs.toList.map Slab.sweep).filter fun s => s.used = 0

theorem getElem?_concat_eq_some {α : Type} {l : List α} {a b : α} {i : Nat}
    (found : (l ++ [a])[i]? = some b) : l[i]? = some b ∨ i = l.length ∧ a = b := by
  rw [List.getElem?_append] at found
  split at found
  · exact .inl found
  · next beyond =>
    obtain ⟨inside, same⟩ := List.getElem?_eq_some_iff.1 found
    rw [List.length_singleton] at inside
    exact .inr ⟨by omega, by simpa using same⟩

theorem indexByBase_concat (l : List Slab) (s : Slab) :
    indexByBase (l ++ [s]) = (indexByBase l).insert s.page.base l.length := by
  simp [indexByBase, List.zipIdx_append, List.foldl_append]

theorem getElem?_indexByBase {l : List Slab}
    (distinct : l.Pairwise fun s t => s.page.base ≠ t.page.base) (b : Addr) (i : Nat) :
    (indexByBase l)[b]? = some i ↔ ∃ s, l[i]? = some s ∧ s.page.base = b := by
  induction l using List.reverseRecOn with
  | nil => simp [indexByBase]
  | append_singleton l s ih =>
    obtain ⟨rest, -, apart⟩ := List.pairwise_append.1 distinct
    have other : ∀ t ∈ l, t.page.base ≠ s.page.base := fun t ht => apart t ht s (by simp)
    rw [indexByBase_concat]
    simp only [Std.ExtTreeMap.getElem?_insert, Nat.compare_eq_eq]
    constructor
    · intro found
      split at found
      · next same =>
        obtain rfl := Option.some.inj found
        exact ⟨s, List.getElem?_concat_length, same⟩
      · obtain ⟨t, ht, same⟩ := (ih rest).1 found
        exact ⟨t, List.getElem?_append_left (List.getElem?_eq_some_iff.1 ht).1 ▸ ht, same⟩
    · rintro ⟨t, ht, same⟩
      obtain ht | ⟨rfl, rfl⟩ := getElem?_concat_eq_some ht
      · have differs : ¬ s.page.base = b := by
          intro h
          exact other t (List.mem_of_getElem? ht) (same.trans h.symm)
        rw [if_neg differs]
        exact (ih rest).2 ⟨t, ht, same⟩
      · rw [if_pos same]

theorem indexRoomy_concat (l : List Slab) (s : Slab) :
    indexRoomy (l ++ [s]) =
      if s.page.kind.isHuge || s.isFull then indexRoomy l
      else
        (indexRoomy l).insert ⟨s.page.kind.contents, s.page.blockSize⟩
          (l.length :: (indexRoomy l).getD ⟨s.page.kind.contents, s.page.blockSize⟩ []) := by
  simp [indexRoomy, List.zipIdx_append, List.foldl_append]

/-- The list of a class names exactly the slabs with room. -/
theorem mem_indexRoomy {l : List Slab} {c : SizeClass} {i : Nat} :
    i ∈ (indexRoomy l).getD c [] ↔ ∃ s, l[i]? = some s ∧ s.HasRoom c := by
  induction l using List.reverseRecOn with
  | nil => simp [indexRoomy]
  | append_singleton l s ih =>
    have split_last : (∃ t, (l ++ [s])[i]? = some t ∧ t.HasRoom c) ↔
        (∃ t, l[i]? = some t ∧ t.HasRoom c) ∨ i = l.length ∧ s.HasRoom c := by
      constructor
      · rintro ⟨t, ht, room⟩
        obtain ht | ⟨rfl, rfl⟩ := getElem?_concat_eq_some ht
        · exact .inl ⟨t, ht, room⟩
        · exact .inr ⟨rfl, room⟩
      · rintro (⟨t, ht, room⟩ | ⟨rfl, room⟩)
        · exact ⟨t, List.getElem?_append_left (List.getElem?_eq_some_iff.1 ht).1 ▸ ht, room⟩
        · exact ⟨s, List.getElem?_concat_length, room⟩
    rw [split_last, ← ih, indexRoomy_concat]
    split
    · next closed =>
      have closed : ¬ s.HasRoom c := by
        rintro ⟨small, -, room⟩
        simp [small, room, PageKind.isHuge] at closed
      simp [closed]
    · next opened =>
      rw [Bool.or_eq_true, not_or, Bool.not_eq_true, Bool.not_eq_true] at opened
      have small : s.page.kind = .small s.page.kind.contents := by
        cases kind : s.page.kind with
        | small k => rfl
        | huge k => simp [kind, PageKind.isHuge] at opened
      have own : s.HasRoom ⟨s.page.kind.contents, s.page.blockSize⟩ := ⟨small, rfl, opened.2⟩
      simp only [Std.ExtTreeMap.getD_insert, Std.compare_eq_iff_eq]
      split
      · next same =>
        subst same
        simp [own, or_comm]
      · next other =>
        have closed : ¬ s.HasRoom c := fun room => other (Slab.HasRoom.class_unique own room)
        simp [closed]

theorem nodup_indexRoomy (l : List Slab) (c : SizeClass) : ((indexRoomy l).getD c []).Nodup := by
  induction l using List.reverseRecOn with
  | nil => simp [indexRoomy]
  | append_singleton l s ih =>
    rw [indexRoomy_concat]
    split
    · exact ih
    · simp only [Std.ExtTreeMap.getD_insert, Std.compare_eq_iff_eq]
      split
      · next same =>
        subst same
        refine List.nodup_cons.2 ⟨fun mem => ?_, ih⟩
        obtain ⟨t, found, -⟩ := mem_indexRoomy.1 mem
        simp at found
      · exact ih

variable {a : Arena}

theorem mem_keptSlabs {t : Slab} :
    t ∈ a.keptSlabs ↔ ∃ (i : Nat) (s : Slab), a.slabs[i]? = some s ∧ t = s.sweep ∧ 0 < t.used := by
  simp only [keptSlabs, List.mem_filter, List.mem_map, Array.mem_toList_iff, decide_eq_true_iff]
  constructor
  · rintro ⟨⟨s, hs, rfl⟩, used⟩
    obtain ⟨i, found⟩ := Array.getElem?_of_mem hs
    exact ⟨i, s, found, rfl, used⟩
  · rintro ⟨i, s, found, rfl, used⟩
    exact ⟨⟨s, Array.mem_of_getElem? found, rfl⟩, used⟩

theorem mem_releasedSlabs {t : Slab} :
    t ∈ a.releasedSlabs ↔
      ∃ (i : Nat) (s : Slab), a.slabs[i]? = some s ∧ t = s.sweep ∧ t.used = 0 := by
  simp only [releasedSlabs, List.mem_filter, List.mem_map, Array.mem_toList_iff, decide_eq_true_iff]
  constructor
  · rintro ⟨⟨s, hs, rfl⟩, used⟩
    obtain ⟨i, found⟩ := Array.getElem?_of_mem hs
    exact ⟨i, s, found, rfl, used⟩
  · rintro ⟨i, s, found, rfl, used⟩
    exact ⟨⟨s, Array.mem_of_getElem? found, rfl⟩, used⟩

theorem pairwise_apart_slabs (sound : a.Sound) :
    a.slabs.toList.Pairwise fun s t => s.page.Apart t.page := by
  rw [List.pairwise_iff_getElem]
  intro i j hi hj below
  refine sound.apart i j _ _ (page?_eq_some ?_) (page?_eq_some ?_) (Nat.ne_of_lt below)
  · rw [← Array.getElem?_toList, List.getElem?_eq_getElem hi]
  · rw [← Array.getElem?_toList, List.getElem?_eq_getElem hj]

theorem pairwise_apart_keptSlabs (sound : a.Sound) :
    a.keptSlabs.Pairwise fun s t => s.page.Apart t.page := by
  have swept : (a.slabs.toList.map Slab.sweep).Pairwise fun s t => s.page.Apart t.page :=
    List.pairwise_map.2 (pairwise_apart_slabs sound)
  exact swept.filter _

theorem page_ne_of_released (sound : a.Sound) {s t : Slab} (hs : s ∈ a.keptSlabs)
    (ht : t ∈ a.releasedSlabs) : s.page ≠ t.page := by
  obtain ⟨i, s, found, rfl, used⟩ := mem_keptSlabs.1 hs
  obtain ⟨j, t, found', rfl, unused⟩ := mem_releasedSlabs.1 ht
  intro same
  have inside : s.page.contains s.page.base = true := by
    have positive := (slab_sound sound found).cut.whole.2.2.1
    rw [Page.contains_iff, Page.limit]
    lia
  have inside' : t.page.contains s.page.base = true := by
    rw [← show s.page = t.page from same]
    exact inside
  obtain rfl := position_unique sound found found' inside inside'
  obtain rfl := Option.some.inj (found.symm.trans found')
  omega

theorem lists_foldl_remove {d : Directory} {P : Page → Prop} (lists : d.Lists P) (l : List Slab) :
    (l.foldl (fun d s => d.remove s.page) d).Lists fun q => P q ∧ ∀ s ∈ l, q ≠ s.page := by
  induction l generalizing d P with
  | nil => simpa using lists
  | cons s l ih =>
    have rest := ih (Directory.lists_remove lists s.page)
    simp only [and_assoc] at rest
    simp only [List.forall_mem_cons]
    exact rest

theorem page?_sweep (i : Nat) : a.sweep.2.page? i = a.keptSlabs[i]?.map (·.page) := by
  change (a.keptSlabs.toArray)[i]?.map (·.page) = _
  rw [List.getElem?_toArray]

theorem exists_of_page?_sweep {i : Nat} {p : Page} (found : a.sweep.2.page? i = some p) :
    ∃ s ∈ a.keptSlabs, s.page = p := by
  rw [page?_sweep] at found
  obtain ⟨s, hs, same⟩ := Option.map_eq_some_iff.1 found
  exact ⟨s, List.mem_of_getElem? hs, same⟩

theorem exists_page?_sweep_iff (sound : a.Sound) (p : Page) :
    (∃ i, a.sweep.2.page? i = some p) ↔
      (∃ i, a.page? i = some p) ∧ ∀ s ∈ a.releasedSlabs, p ≠ s.page := by
  constructor
  · rintro ⟨i, hp⟩
    obtain ⟨t, ht, rfl⟩ := exists_of_page?_sweep hp
    obtain ⟨j, s, found, rfl, -⟩ := mem_keptSlabs.1 ht
    have before : a.page? j = some s.page := page?_eq_some found
    exact ⟨⟨j, before⟩, fun r hr => page_ne_of_released sound ht hr⟩
  · rintro ⟨⟨i, hp⟩, unreleased⟩
    obtain ⟨s, found, rfl⟩ := exists_of_page?_eq_some hp
    have used : 0 < s.sweep.used := by
      by_contra unused
      exact unreleased s.sweep (mem_releasedSlabs.2 ⟨i, s, found, rfl, by omega⟩) rfl
    obtain ⟨j, hj⟩ := List.getElem?_of_mem (mem_keptSlabs.2 ⟨i, s, found, rfl, used⟩)
    exact ⟨j, by rw [page?_sweep, hj]; rfl⟩

theorem size_pos_of_mem_keptSlabs (sound : a.Sound) {s : Slab} (hs : s ∈ a.keptSlabs) :
    0 < s.page.size := by
  obtain ⟨_, s, found, rfl, -⟩ := mem_keptSlabs.1 hs
  exact (slab_sound sound found).cut.whole.2.2.1

theorem byBase_sweep (sound : a.Sound) (b : Addr) (i : Nat) :
    a.sweep.2.byBase[b]? = some i ↔ ∃ p, a.sweep.2.page? i = some p ∧ p.base = b := by
  have distinct : a.keptSlabs.Pairwise fun s t => s.page.base ≠ t.page.base :=
    (pairwise_apart_keptSlabs sound).imp_of_mem fun hs ht apart =>
      apart.base_ne (size_pos_of_mem_keptSlabs sound hs) (size_pos_of_mem_keptSlabs sound ht)
  rw [page?_sweep]
  change (indexByBase a.keptSlabs)[b]? = some i ↔ _
  rw [getElem?_indexByBase distinct]
  simp only [Option.map_eq_some_iff]
  constructor
  · rintro ⟨s, hs, base⟩
    exact ⟨s.page, ⟨s, hs, rfl⟩, base⟩
  · rintro ⟨p, ⟨s, hs, rfl⟩, base⟩
    exact ⟨s, hs, base⟩

theorem sound_sweep (sound : a.Sound) : a.sweep.2.Sound := by
  constructor
  · intro t ht
    obtain ⟨i, s, found, rfl, -⟩ := mem_keptSlabs.1 (List.mem_toArray.1 ht)
    exact Slab.sound_sweep (slab_sound sound found)
  · intro i j p q hp hq different
    rw [page?_sweep] at hp hq
    obtain ⟨s, hs, rfl⟩ := Option.map_eq_some_iff.1 hp
    obtain ⟨t, ht, rfl⟩ := Option.map_eq_some_iff.1 hq
    obtain ⟨hi, rfl⟩ := List.getElem?_eq_some_iff.1 hs
    obtain ⟨hj, rfl⟩ := List.getElem?_eq_some_iff.1 ht
    have apart := List.pairwise_iff_getElem.1 (pairwise_apart_keptSlabs sound)
    obtain below | above := Nat.lt_or_gt_of_ne different
    · exact apart i j hi hj below
    · exact (apart j i hj hi above).symm
  · intro i p hp
    obtain ⟨t, ht, rfl⟩ := exists_of_page?_sweep hp
    obtain ⟨j, s, found, rfl, -⟩ := mem_keptSlabs.1 ht
    have := sound.numbered j _ (page?_eq_some found)
    exact this
  · rw [funext fun p => propext (exists_page?_sweep_iff sound p)]
    exact lists_foldl_remove sound.directory a.releasedSlabs
  · exact byBase_sweep sound
  · intro c i hi
    change i ∈ (indexRoomy a.keptSlabs).getD c [] at hi
    obtain ⟨s, hs, kind, blockSize, -⟩ := mem_indexRoomy.1 hi
    exact ⟨s.page, by rw [page?_sweep, hs]; rfl, kind, blockSize⟩

theorem exists_kept (sound : a.Sound) {i k : Nat} {s : Slab} (found : a.slabs[i]? = some s)
    (allocated : s.isAllocated k = true) (marked : a.Marks (s.page.blockAddr k)) :
    s.marks.get k = true ∧ s.sweep.isAllocated k = true ∧
      ∃ j : Nat, a.sweep.2.slabs[j]? = some s.sweep := by
  obtain ⟨j, l, place, bit⟩ := marked
  obtain ⟨rfl, rfl⟩ := places_unique sound ⟨s, found, allocated, rfl⟩ place
  have mark : s.marks.get k = true := by simpa [markBit, found] using bit
  have still : s.sweep.isAllocated k = true := by
    rw [Slab.isAllocated_sweep, allocated, mark]
    rfl
  have used := Slab.used_pos_of_isAllocated (Slab.sound_sweep (slab_sound sound found)) still
  obtain ⟨j, hj⟩ := List.getElem?_of_mem (mem_keptSlabs.2 ⟨i, s, found, rfl, used⟩)
  refine ⟨mark, still, j, ?_⟩
  change a.keptSlabs.toArray[j]? = _
  rw [List.getElem?_toArray, hj]

theorem holds_sweep (sound : a.Sound) (b : Block) :
    a.sweep.2.Holds b ↔ a.Holds b ∧ a.Marks b.addr := by
  constructor
  · rintro ⟨t, ht, k, allocated, rfl⟩
    obtain ⟨i, s, found, rfl, -⟩ := mem_keptSlabs.1 (List.mem_toArray.1 ht)
    rw [Slab.isAllocated_sweep, Bool.and_eq_true] at allocated
    refine ⟨holds_iff.2 ⟨i, s, k, found, allocated.1, rfl⟩, i, k,
      ⟨s, found, allocated.1, rfl⟩, ?_⟩
    simp [markBit, found, allocated.2]
  · rintro ⟨held, marked⟩
    obtain ⟨i, s, k, found, allocated, rfl⟩ := holds_iff.1 held
    obtain ⟨-, still, j, there⟩ := exists_kept sound found allocated marked
    exact holds_iff.2 ⟨j, s.sweep, k, there, still, rfl⟩

theorem carries_sweep (sound : a.Sound) {b : Block} (marked : a.Marks b.addr) :
    a.Carries a.sweep.2 b := by
  rintro i s k found allocated rfl
  obtain ⟨mark, still, j, there⟩ := exists_kept sound found allocated marked
  have alive : s.isDead k = false := by simp [Slab.isDead, mark]
  refine ⟨j, s.sweep, there, rfl, still, fun x inside => ?_⟩
  exact Slab.read_sweep (slab_sound sound found).cut inside.1 inside.2 alive

end Arena

end MarkSweep
