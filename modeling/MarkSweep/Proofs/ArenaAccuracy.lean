import MarkSweep.Arena.History
import MarkSweep.Proofs.ArenaFiling
import MarkSweep.Proofs.ArenaSweep

set_option autoImplicit false

namespace MarkSweep

namespace Arena

section Marking

variable {a b : Arena}

theorem total_slabs_clearMarks (a : Arena) (f : Slab → Nat)
    (blind : ∀ (s : Slab) (marks : Bitmap), f { s with marks } = f s) :
    total f a.clearMarks.slabs.toList = total f a.slabs.toList := by
  rw [clearMarks, Array.toList_map, total_map]
  exact total_congr fun s _ => blind s _

theorem total_slabs_congr (same : b.clearMarks = a.clearMarks) (f : Slab → Nat)
    (blind : ∀ (s : Slab) (marks : Bitmap), f { s with marks } = f s) :
    total f b.slabs.toList = total f a.slabs.toList := by
  rw [← total_slabs_clearMarks b f blind, same, total_slabs_clearMarks a f blind]

theorem pages_congr (same : b.clearMarks = a.clearMarks) : b.pages = a.pages := by
  have key : ∀ c : Arena, c.clearMarks.pages = c.pages := fun c => by
    simp only [pages, clearMarks, Array.toList_map, List.map_map, Function.comp_def]
  rw [← key, same, key]

theorem exists_slab_congr (same : b.clearMarks = a.clearMarks) {i : Nat} {t : Slab}
    (found : b.slabs[i]? = some t) :
    ∃ (s : Slab) (marks : Bitmap), a.slabs[i]? = some s ∧ t = { s with marks } := by
  obtain ⟨marks, there, -⟩ := exists_marks_congr same.symm found
  exact ⟨_, t.marks, there, rfl⟩

theorem balanced_congr (same : b.clearMarks = a.clearMarks) (balanced : a.Balanced) :
    b.Balanced := by
  have fields := same
  simp only [clearMarks, Arena.mk.injEq] at fields
  obtain ⟨-, -, directory, -, -, -, privateBytes, liveBlocks, liveBytes, -⟩ := fields
  constructor
  · intro t ht
    obtain ⟨i, found⟩ := Array.getElem?_of_mem ht
    obtain ⟨s, marks, before, rfl⟩ := exists_slab_congr same found
    exact Slab.tidy_remark (balanced.tidy s (Array.mem_of_getElem? before)) marks
  · rw [privateBytes, balanced.privateBytes]
    exact (total_slabs_congr same _ fun _ _ => rfl).symm
  · rw [liveBlocks, balanced.liveBlocks]
    exact (total_slabs_congr same _ fun _ _ => rfl).symm
  · rw [liveBytes, balanced.liveBytes]
    exact (total_slabs_congr same _ fun _ _ => rfl).symm
  · rw [directory, pages_congr same]
    exact balanced.tracks

theorem listed_congr (same : b.clearMarks = a.clearMarks) (listed : a.Listed) : b.Listed := by
  have roomy : b.roomy = a.roomy := congrArg (·.roomy) same
  have lists : ∀ c, b.roomyIn c = a.roomyIn c := fun c => by rw [roomyIn, roomyIn, roomy]
  constructor
  · intro c i
    rw [lists, listed.roomy]
    constructor
    · rintro ⟨s, found, room⟩
      obtain ⟨t, marks, there, rfl⟩ := exists_slab_congr same.symm found
      exact ⟨t, there, room⟩
    · rintro ⟨t, found, room⟩
      obtain ⟨s, marks, there, rfl⟩ := exists_slab_congr same found
      exact ⟨s, there, room⟩
  · intro c
    rw [lists]
    exact listed.once c

theorem filed_congr (same : b.clearMarks = a.clearMarks) (filed : a.Filed) : b.Filed where
  sound := sound_congr same filed.sound
  balanced := balanced_congr same filed.balanced
  listed := listed_congr same filed.listed

theorem tallied_congr (same : b.clearMarks = a.clearMarks) (tallied : a.Tallied) : b.Tallied where
  sound := sound_congr same tallied.sound
  balanced := balanced_congr same tallied.balanced
  stocked := by
    refine ⟨listed_congr same tallied.stocked.toListed, fun t ht => ?_⟩
    obtain ⟨i, found⟩ := Array.getElem?_of_mem ht
    obtain ⟨s, marks, before, rfl⟩ := exists_slab_congr same found
    exact tallied.stocked.inUse s (Array.mem_of_getElem? before)
  threshold := by
    have threshold : b.hugeThreshold = a.hugeThreshold := congrArg (·.hugeThreshold) same
    rw [threshold]
    exact tallied.threshold

end Marking

section Sweeping

variable {a : Arena}

theorem tracks_foldl_remove {d : Directory} {S : Finset Page} (tracks : d.Tracks S)
    (l : List Slab) :
    (l.foldl (fun d s => d.remove s.page) d).Tracks
      (S.filter fun p => ∀ s ∈ l, p ≠ s.page) := by
  induction l generalizing d S with
  | nil => simpa using tracks
  | cons s l ih =>
    have rest := ih (tracks.tracks_remove s.page)
    have same : (S.erase s.page).filter (fun p => ∀ t ∈ l, p ≠ t.page) =
        S.filter fun p => ∀ t ∈ s :: l, p ≠ t.page := by
      ext p
      simp only [Finset.mem_filter, Finset.mem_erase, List.forall_mem_cons]
      tauto
    rw [← same]
    exact rest

theorem total_size_keptSlabs_add (a : Arena) :
    total (·.page.size) a.keptSlabs + total (·.page.size) a.releasedSlabs =
      total (·.page.size) a.slabs.toList := by
  have swept : total (·.page.size) (a.slabs.toList.map Slab.sweep) =
      total (·.page.size) a.slabs.toList := total_map _ _ _
  rw [keptSlabs, releasedSlabs, total_filter_add, swept]
  intro s _
  rw [← decide_not, decide_eq_decide]
  omega

theorem balanced_sweep (sound : a.Sound) (balanced : a.Balanced) : a.sweep.2.Balanced := by
  have parts := total_size_keptSlabs_add a
  have pages : a.sweep.2.pages = a.pages.filter fun p => ∀ s ∈ a.releasedSlabs, p ≠ s.page := by
    ext p
    rw [mem_pages, exists_page?_sweep_iff sound, Finset.mem_filter, mem_pages]
  constructor
  · intro t ht
    obtain ⟨i, s, found, rfl, -⟩ := mem_keptSlabs.1 (List.mem_toArray.1 ht)
    exact Slab.tidy_sweep (balanced.tidy s (Array.mem_of_getElem? found))
  · change a.privateBytes - total (·.page.size) a.releasedSlabs = total _ a.keptSlabs
    rw [balanced.privateBytes]
    omega
  · rfl
  · rfl
  · rw [pages]
    exact tracks_foldl_remove balanced.tracks a.releasedSlabs

theorem stocked_sweep (a : Arena) : a.sweep.2.Stocked where
  roomy c i := by
    change i ∈ (indexRoomy a.keptSlabs).getD c [] ↔ ∃ s, a.keptSlabs.toArray[i]? = some s ∧ _
    rw [mem_indexRoomy, List.getElem?_toArray]
  once := nodup_indexRoomy a.keptSlabs
  inUse t ht := by
    obtain ⟨i, s, found, rfl, used⟩ := mem_keptSlabs.1 (List.mem_toArray.1 ht)
    exact used

theorem filed_sweep (filed : a.Filed) : a.sweep.2.Filed where
  sound := sound_sweep filed.sound
  balanced := balanced_sweep filed.sound filed.balanced
  listed := (stocked_sweep a).toListed

theorem tallied_sweep (tallied : a.Tallied) : a.sweep.2.Tallied where
  sound := sound_sweep tallied.sound
  balanced := balanced_sweep tallied.sound tallied.balanced
  stocked := stocked_sweep a
  threshold := tallied.threshold

end Sweeping

section Histories

variable {a b : Arena}

theorem tallied_of_reachable {hugeThreshold heapLimit : Nat}
    (valid : Config.validHugeThreshold hugeThreshold = true)
    (reached : Arena.Reachable hugeThreshold heapLimit a) : a.Tallied := by
  induction reached with
  | new => exact tallied_new valid
  | allocate size kind before aligned ih => exact tallied_allocate ih aligned rfl
  | @clearMarks a before ih => exact tallied_congr (clearMarks_clearMarks a) ih
  | @mark a p index before allocated ih => exact tallied_congr (clearMarks_testAndMark a p index) ih
  | sweep before ih => exact tallied_sweep ih

theorem hugeThreshold_of_reachable {hugeThreshold heapLimit : Nat}
    (valid : Config.validHugeThreshold hugeThreshold = true)
    (reached : Arena.Reachable hugeThreshold heapLimit a) : a.hugeThreshold = hugeThreshold := by
  induction reached with
  | new => rfl
  | allocate size kind before aligned ih =>
    exact (hugeThreshold_allocate (tallied_of_reachable valid before).filed aligned rfl).trans ih
  | clearMarks before ih => exact ih
  | @mark a p index before allocated ih =>
    have same := congrArg (·.hugeThreshold) (clearMarks_testAndMark a p index)
    exact same.trans ih
  | sweep before ih => exact ih

def blocks (a : Arena) : List Block := a.slabs.toList.flatMap Slab.blocks

theorem mem_blocks (sound : a.Sound) {b : Block} : b ∈ a.blocks ↔ a.Holds b := by
  simp only [blocks, List.mem_flatMap, Array.mem_toList_iff, Holds]
  exact exists_congr fun s => and_congr_right fun hs => Slab.mem_blocks (sound.slab s hs)

theorem nodup_blocks (sound : a.Sound) : a.blocks.Nodup := by
  refine List.nodup_flatMap.2 ⟨fun s hs => ?_, ?_⟩
  · exact Slab.nodup_blocks (sound.slab s (Array.mem_toList_iff.1 hs))
  · rw [List.pairwise_iff_getElem]
    intro i j hi hj below b left right
    have found : a.slabs[i]? = some a.slabs.toList[i] := by
      rw [← Array.getElem?_toList, List.getElem?_eq_getElem hi]
    have found' : a.slabs[j]? = some a.slabs.toList[j] := by
      rw [← Array.getElem?_toList, List.getElem?_eq_getElem hj]
    obtain ⟨k, allocated, rfl⟩ := (Slab.mem_blocks (slab_sound sound found)).1 left
    obtain ⟨l, allocated', same⟩ := (Slab.mem_blocks (slab_sound sound found')).1 right
    -- The start of a common block would lie on both pages.
    have here := contains_blockAddr sound found allocated
    have start : a.slabs.toList[i].page.blockAddr k = a.slabs.toList[j].page.blockAddr l :=
      congrArg Block.addr same
    have there := contains_blockAddr sound found' allocated'
    rw [← start] at there
    exact Nat.ne_of_lt below (position_unique sound found found' here there)

theorem length_blocks (sound : a.Sound) : a.blocks.length = total (·.used) a.slabs.toList := by
  have lengths := total_flatMap (fun _ => 1) Slab.blocks a.slabs.toList
  rw [total_const, Nat.mul_one] at lengths
  rw [blocks, lengths]
  refine total_congr fun s hs => ?_
  rw [total_const, Nat.mul_one, Slab.length_blocks (sound.slab s (Array.mem_toList_iff.1 hs))]

theorem total_size_blocks (sound : a.Sound) :
    total (·.size) a.blocks = total (fun s => s.used * s.page.blockSize) a.slabs.toList := by
  rw [blocks, total_flatMap]
  exact total_congr fun s hs =>
    Slab.total_size_blocks (sound.slab s (Array.mem_toList_iff.1 hs))

theorem length_blocks_of_filed (filed : a.Filed) : a.blocks.length = a.liveBlocks :=
  (length_blocks filed.sound).trans filed.balanced.liveBlocks.symm

theorem total_size_blocks_of_filed (filed : a.Filed) : total (·.size) a.blocks = a.liveBytes :=
  (total_size_blocks filed.sound).trans filed.balanced.liveBytes.symm

theorem blocks_perm (sound : a.Sound) (sound' : b.Sound) {extra : List Block} (once : extra.Nodup)
    (other : ∀ c ∈ extra, ¬ a.Holds c) (same : ∀ c, b.Holds c ↔ a.Holds c ∨ c ∈ extra) :
    b.blocks.Perm (extra ++ a.blocks) := by
  refine (List.perm_ext_iff_of_nodup (nodup_blocks sound') ?_).2 fun c => ?_
  · refine List.nodup_append.2 ⟨once, nodup_blocks sound, ?_⟩
    rintro c here d there rfl
    exact other c here ((mem_blocks sound).1 there)
  · rw [mem_blocks sound', same, List.mem_append, mem_blocks sound, or_comm]

theorem counts_of_perm (filed : a.Filed) (filed' : b.Filed) {extra : List Block}
    (same : b.blocks.Perm (extra ++ a.blocks)) :
    b.liveBlocks = extra.length + a.liveBlocks ∧
      b.liveBytes = total (·.size) extra + a.liveBytes := by
  rw [← length_blocks_of_filed filed, ← length_blocks_of_filed filed',
    ← total_size_blocks_of_filed filed, ← total_size_blocks_of_filed filed']
  exact ⟨same.length_eq.trans List.length_append, (total_perm _ same).trans (total_append _ _ _)⟩

theorem nodup_pages (sound : a.Sound) : (a.slabs.toList.map (·.page)).Nodup := by
  refine List.pairwise_map.2 ((pairwise_apart_slabs sound).imp_of_mem fun hs ht apart same => ?_)
  have pos := fun {s} (hs : s ∈ a.slabs.toList) =>
    (sound.slab s (Array.mem_toList_iff.1 hs)).cut.whole.2.2.1
  exact apart.base_ne (pos hs) (pos ht) (congrArg Page.base same)

theorem card_pages (sound : a.Sound) : a.pages.card = a.slabs.size := by
  rw [pages, List.toFinset_card_of_nodup (nodup_pages sound), List.length_map, Array.length_toList]

/-- Whether the counts and indexes of an arena agree with its slabs, and so does the directory. -/
structure Accurate (a : Arena) : Prop where
  used_eq_count : ∀ s ∈ a.slabs, s.used = s.allocated.count
  bits_inside : ∀ s ∈ a.slabs, ∀ i, s.allocated.get i = true → i < s.page.blockCount
  cursor_passed : ∀ s ∈ a.slabs, ∀ i < s.cursor, s.isAllocated i = true
  used_pos : ∀ s ∈ a.slabs, 0 < s.used
  byBase_iff : ∀ (b : Addr) (i : Nat),
    a.byBase[b]? = some i ↔ ∃ s, a.slabs[i]? = some s ∧ s.page.base = b
  roomy_iff : ∀ (c : SizeClass) (i : Nat), i ∈ a.roomyIn c ↔ ∃ s, a.slabs[i]? = some s ∧
    s.page.kind = .small c.kind ∧ s.page.blockSize = c.blockSize ∧ s.isFull = false
  roomy_nodup : ∀ c, (a.roomyIn c).Nodup
  privateBytes_eq : a.privateBytes = total (·.page.size) a.slabs.toList
  mem_blocks_iff : ∀ b, b ∈ a.blocks ↔ a.Holds b
  blocks_nodup : a.blocks.Nodup
  liveBlocks_eq : a.liveBlocks = a.blocks.length
  liveBytes_eq : a.liveBytes = total (·.size) a.blocks
  represents : a.directory.Represents a.pages
  pageCount_eq : a.directory.pageCount = a.slabs.size
  apart : a.slabs.toList.Pairwise fun s t => s.page.Apart t.page

theorem accurate_of_tallied (tallied : a.Tallied) : a.Accurate := by
  obtain ⟨sound, balanced, stocked, -⟩ := tallied
  exact {
    used_eq_count := fun s hs => (sound.slab s hs).used_eq
    bits_inside := fun s hs => (balanced.tidy s hs).inside
    cursor_passed := fun s hs => (balanced.tidy s hs).below
    used_pos := stocked.inUse
    byBase_iff := fun b i => by simp [sound.byBase, page?]
    roomy_iff := stocked.roomy
    roomy_nodup := stocked.once
    privateBytes_eq := balanced.privateBytes
    mem_blocks_iff := fun b => mem_blocks sound
    blocks_nodup := nodup_blocks sound
    liveBlocks_eq := balanced.liveBlocks.trans (length_blocks sound).symm
    liveBytes_eq := balanced.liveBytes.trans (total_size_blocks sound).symm
    represents := balanced.tracks.represents
    pageCount_eq := balanced.tracks.count.trans (card_pages sound)
    apart := pairwise_apart_slabs sound }

/-- The books of an arena agree with its slabs after any history, and a small request maps a page
only when the slabs of its class are full. -/
theorem accurate_of_reachable {hugeThreshold heapLimit : Nat}
    (valid : Config.validHugeThreshold hugeThreshold = true)
    (reached : Arena.Reachable hugeThreshold heapLimit a) :
    a.Accurate ∧ ∀ (host : Host) (size : Nat) (kind : BlockKind), host.IsAligned →
      size ≤ hugeThreshold → (a.allocate host size kind).2.pages ≠ a.pages →
      ∀ s ∈ a.slabs, s.page.kind = .small kind →
        s.page.blockSize = (SizeClass.of kind size).blockSize → s.isFull = true := by
  have tallied := tallied_of_reachable valid reached
  refine ⟨accurate_of_tallied tallied, ?_⟩
  intro host size kind aligned small more s hs of_kind of_class
  have threshold := hugeThreshold_of_reachable valid reached
  have unlisted := roomyIn_eq_nil_of_pages_ne tallied aligned rfl (threshold.symm ▸ small) more
  by_contra opened
  obtain ⟨i, found⟩ := Array.getElem?_of_mem hs
  have listed := (tallied.stocked.roomy (SizeClass.of kind size) i).2
    ⟨s, found, of_kind, of_class, by simpa using opened⟩
  simp [unlisted] at listed

end Histories

def rising : Host where
  region a size _ :=
    if size == granule && a.slabs.size < 3 then some (granule * (a.slabs.size + 1)) else none
  table _ _ := true

theorem isAligned_rising : rising.IsAligned := by
  intro a size attempt base region
  unfold rising at region
  simp only at region
  split at region
  · next fits =>
    rw [Bool.and_eq_true, beq_iff_eq, decide_eq_true_iff] at fits
    obtain ⟨rfl, few⟩ := fits
    obtain rfl := Option.some.inj region
    refine ⟨Nat.dvd_mul_right _ _, ?_, ?_⟩
    · rw [granule]
      lia
    · rw [granule, UInt64.size]
      lia
  · simp at region

def pairInUse : Arena :=
  (((Arena.new 32768 0).allocate rising 32768 .raw).2.allocate rising 20000 .raw).2

theorem accurate_of_reachable_pairInUse :
    Arena.Reachable 32768 0 pairInUse ∧ pairInUse.Accurate ∧
      (pairInUse.allocate rising 16385 .raw).2.pages ≠ pairInUse.pages ∧
      ∃ s ∈ pairInUse.slabs, s.page.kind = .small .raw ∧ s.isFull = true := by
  have reached : Arena.Reachable 32768 0 pairInUse :=
    .allocate 20000 .raw (.allocate 32768 .raw .new isAligned_rising) isAligned_rising
  obtain ⟨accurate, full⟩ := accurate_of_reachable (by decide) reached
  have more : (pairInUse.allocate rising 16385 .raw).2.pages ≠ pairInUse.pages := by
    decide +kernel
  have first : ∃ s ∈ pairInUse.slabs, s.page.kind = .small .raw ∧ s.page.blockSize = 32768 := by
    decide +kernel
  obtain ⟨s, hs, of_kind, of_class⟩ := first
  exact ⟨reached, accurate, more, s, hs, of_kind,
    full rising 16385 .raw isAligned_rising (by decide) more s hs of_kind of_class⟩

end Arena

end MarkSweep
