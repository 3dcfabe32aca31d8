import MarkSweep.Proofs.ArenaHistories
import MarkSweep.Proofs.SlabSweep

set_option autoImplicit false

namespace MarkSweep

namespace Slab

variable {s : Slab}

theorem dead_add_used_sweep (sound : s.Sound) :
    s.dead.length + s.sweep.used = s.used := by
  have parts := Bitmap.count_inter_add s.allocated s.marks
  have dead : s.dead.length =
      (List.range s.allocated.size).countP fun i => s.allocated.get i && !s.marks.get i :=
    List.countP_eq_length_filter.symm
  change s.dead.length + (s.used - s.dead.length) = s.used
  rw [sound.used_eq, dead]
  lia

/-- Each word behind the base of a page belongs to the block around it, if the blocks went on. -/
theorem contains_block_iff (cut : s.page.IsCut) {x : Addr} (low : s.page.base ≤ x) (k : Nat) :
    (s.block k).Contains x ↔ s.blockOfWord ((x - s.page.base) / wordBytes) = k := by
  refine ⟨fun inside => blockOfWord_of_mem_block cut inside.1 inside.2, ?_⟩
  rintro rfl
  have around := (Page.div_blockSize_eq_iff cut low).1 rfl
  rw [blockOfWord_of_mem_block cut around.1 around.2]
  exact around

end Slab

namespace Arena

variable {a b m : Arena}

/-- Whether a block is in use without a mark. -/
def Doomed (a : Arena) (c : Block) : Prop := a.Holds c ∧ ¬ a.Marks c.addr

/-- What a sweep is to make of an arena and to report. -/
structure Swept (a : Arena) (report : SweepReport) (b : Arena) : Prop where
  holds_iff : ∀ c, b.Holds c ↔ a.Holds c ∧ a.Marks c.addr
  pages_iff : ∀ p, p ∈ b.pages ↔ p ∈ a.pages ∧ ∃ c, b.Holds c ∧ p.contains c.addr = true
  blanked : ∀ p ∈ b.pages, ∀ x, p.contains x = true →
    (∃ c, a.Doomed c ∧ c.Contains x) → b.read x = 0
  untouched : ∀ p ∈ b.pages, ∀ x, p.contains x = true →
    (∀ c, a.Doomed c → ¬ c.Contains x) → b.read x = a.read x
  lost : ∀ p ∈ a.pages, p ∉ b.pages → ∀ x, p.contains x = true → b.directory.lookup x = none
  found : ∀ x, (∀ p ∈ a.pages, p ∉ b.pages → p.contains x = false) →
    b.directory.lookup x = a.directory.lookup x
  represents : b.directory.Represents b.pages
  /-- It would do the same with a directory that has pages of others installed, and leave those. -/
  elsewhere : ∀ d : Directory, d.Reachable → ∃ d' : Directory,
    ({ a with directory := d } : Arena).sweep = (report, { b with directory := d' }) ∧
      ∀ x p, d'.lookup x = some p ↔ d.lookup x = some p ∧ (p ∈ a.pages → p ∈ b.pages)
  freed : ∃ blocks : List Block, blocks.Nodup ∧ (∀ c, c ∈ blocks ↔ a.Doomed c) ∧
    report.freedBlocks = blocks.length ∧ report.freedBytes = total (·.size) blocks
  live : ∃ blocks : List Block, blocks.Nodup ∧ (∀ c, c ∈ blocks ↔ b.Holds c) ∧
    report.liveBlocks = blocks.length ∧ report.liveBytes = total (·.size) blocks
  released : ∃ pages : List Page, pages.Nodup ∧ (∀ p, p ∈ pages ↔ p ∈ a.pages ∧ p ∉ b.pages) ∧
    report.pagesReleased = pages.length ∧ b.privateBytes + total (·.size) pages = a.privateBytes
  /-- The sweep of a page comes to the same if it goes through the words of the bitmap. -/
  byWords : ∀ s ∈ a.slabs, s.sweepWords = (s.sweep, s.dead.length, s.dead.length * s.page.blockSize)

theorem marks_iff_get (sound : a.Sound) {i k : Nat} {s : Slab} (found : a.slabs[i]? = some s)
    (allocated : s.isAllocated k = true) :
    a.Marks (s.page.blockAddr k) ↔ s.marks.get k = true := by
  refine ⟨fun marked => (exists_kept sound found allocated marked).1, fun bit => ?_⟩
  exact ⟨i, k, ⟨s, found, allocated, rfl⟩, by simpa [markBit, found] using bit⟩

theorem isDead_blockOfWord_iff (filed : a.Filed) {i : Nat} {s : Slab} (found : a.slabs[i]? = some s)
    {x : Addr} (inside : s.page.contains x = true) :
    s.isDead (s.blockOfWord ((x - s.page.base) / wordBytes)) = true ↔
      ∃ c, a.Doomed c ∧ c.Contains x := by
  have cut := (slab_sound filed.sound found).cut
  have tidy := filed.balanced.tidy s (Array.mem_of_getElem? found)
  have around := Slab.contains_block_iff cut (Page.contains_iff.1 inside).1
  rw [Slab.isDead, Bool.and_eq_true, Bool.not_eq_true']
  constructor
  · rintro ⟨inUse, unmarked⟩
    have allocated := Slab.isAllocated_iff.2 ⟨tidy.inside _ inUse, inUse⟩
    refine ⟨_, ⟨holds_iff.2 ⟨i, s, _, found, allocated, rfl⟩, fun marked => ?_⟩, (around _).2 rfl⟩
    rw [(marks_iff_get filed.sound found allocated).1 marked] at unmarked
    contradiction
  · rintro ⟨c, ⟨held, unmarked⟩, within⟩
    obtain ⟨j, t, k, found', allocated, rfl⟩ := holds_iff.1 held
    have inside' := contains_of_block filed.sound found' allocated within
    obtain rfl := position_unique filed.sound found found' inside inside'
    obtain rfl := Option.some.inj (found.symm.trans found')
    rw [(around k).1 within]
    exact ⟨(Slab.isAllocated_iff.1 allocated).2,
      Bool.eq_false_iff.2 fun bit => unmarked ((marks_iff_get filed.sound found allocated).2 bit)⟩

theorem read_sweep (filed : a.Filed) {p : Page} (left : p ∈ a.sweep.2.pages) {x : Addr}
    (inside : p.contains x = true) :
    ∃ (i : Nat) (s : Slab), a.slabs[i]? = some s ∧ s.page = p ∧ a.sweep.2.read x =
      if s.isDead (s.blockOfWord ((x - s.page.base) / wordBytes)) then 0 else a.read x := by
  obtain ⟨j, there⟩ := mem_pages.1 left
  obtain ⟨t, found', rfl⟩ := exists_of_page?_eq_some there
  have kept : t ∈ a.keptSlabs := List.mem_toArray.1 (Array.mem_of_getElem? found')
  obtain ⟨i, s, found, rfl, -⟩ := mem_keptSlabs.1 kept
  refine ⟨i, s, found, rfl, ?_⟩
  rw [read_eq (sound_sweep filed.sound) found' inside, read_eq filed.sound found inside]
  exact Slab.get_contents_sweep s _

theorem pages_sweep_subset (sound : a.Sound) {p : Page} (left : p ∈ a.sweep.2.pages) :
    p ∈ a.pages := by
  rw [mem_pages, exists_page?_sweep_iff sound] at left
  exact mem_pages.2 left.1

theorem mem_pages_sweep_iff (filed : a.Filed) (p : Page) :
    p ∈ a.sweep.2.pages ↔ p ∈ a.pages ∧ ∃ c, a.sweep.2.Holds c ∧ p.contains c.addr = true := by
  have swept := filed_sweep filed
  constructor
  · intro left
    refine ⟨pages_sweep_subset filed.sound left, ?_⟩
    obtain ⟨j, there⟩ := mem_pages.1 left
    obtain ⟨t, found, rfl⟩ := exists_of_page?_eq_some there
    have used := (stocked_sweep a).inUse t (Array.mem_of_getElem? found)
    have sound := slab_sound swept.sound found
    rw [sound.used_eq, Bitmap.count, List.countP_pos_iff] at used
    obtain ⟨k, inside, bit⟩ := used
    rw [List.mem_range, sound.allocated_size] at inside
    have allocated := Slab.isAllocated_iff.2 ⟨inside, bit⟩
    exact ⟨t.block k, holds_iff.2 ⟨j, t, k, found, allocated, rfl⟩,
      contains_blockAddr swept.sound found allocated⟩
  · rintro ⟨owned, c, held, inside⟩
    obtain ⟨j, t, k, found, allocated, rfl⟩ := holds_iff.1 held
    have there : t.page.contains (t.block k).addr = true :=
      contains_blockAddr swept.sound found allocated
    have left : t.page ∈ a.sweep.2.pages := mem_pages.2 ⟨j, page?_eq_some found⟩
    -- The block starts on both pages, and both belong to the arena.
    obtain ⟨i, hp⟩ := mem_pages.1 owned
    obtain ⟨s, found', rfl⟩ := exists_of_page?_eq_some hp
    obtain ⟨i', hp'⟩ := mem_pages.1 (pages_sweep_subset filed.sound left)
    obtain ⟨s', found'', same⟩ := exists_of_page?_eq_some hp'
    rw [← same] at there
    obtain rfl := position_unique filed.sound found' found'' inside there
    obtain rfl := Option.some.inj (found'.symm.trans found'')
    exact same ▸ left

theorem lookup_sweep (filed : a.Filed) (x : Addr) (p : Page) :
    a.sweep.2.directory.lookup x = some p ↔
      a.directory.lookup x = some p ∧ p ∈ a.sweep.2.pages := by
  rw [(filed_sweep filed).balanced.tracks.represents.lookup_iff,
    filed.balanced.tracks.represents.lookup_iff]
  constructor
  · rintro ⟨left, inside⟩
    exact ⟨⟨pages_sweep_subset filed.sound left, inside⟩, left⟩
  · rintro ⟨⟨-, inside⟩, left⟩
    exact ⟨left, inside⟩

theorem nodup_released (sound : a.Sound) : (a.releasedSlabs.map (·.page)).Nodup := by
  have part : (a.releasedSlabs.map (·.page)).Sublist
      ((a.slabs.toList.map Slab.sweep).map (·.page)) := List.filter_sublist.map _
  rw [List.map_map] at part
  exact part.nodup (nodup_pages sound)

theorem mem_released_iff (sound : a.Sound) (p : Page) :
    p ∈ a.releasedSlabs.map (·.page) ↔ p ∈ a.pages ∧ p ∉ a.sweep.2.pages := by
  rw [mem_pages, mem_pages, exists_page?_sweep_iff sound, List.mem_map]
  constructor
  · rintro ⟨t, given, rfl⟩
    obtain ⟨i, s, found, rfl, -⟩ := mem_releasedSlabs.1 given
    have owned : a.page? i = some s.page := page?_eq_some found
    exact ⟨⟨i, owned⟩, fun left => left.2 _ given rfl⟩
  · rintro ⟨owned, left⟩
    by_contra other
    exact left ⟨owned, fun t given same => other ⟨t, given, same.symm⟩⟩

/-- A sweep takes the pages that it gives up out of any directory. -/
theorem lookup_foldl_released (sound : a.Sound) {d : Directory} (installed : d.Reachable) (x : Addr)
    (p : Page) : (a.releasedSlabs.foldl (fun d s => d.remove s.page) d).lookup x = some p ↔
      d.lookup x = some p ∧ (p ∈ a.pages → p ∈ a.sweep.2.pages) := by
  obtain ⟨S, tracks⟩ := Directory.exists_tracks_of_reachable installed
  have given : (∀ s ∈ a.releasedSlabs, p ≠ s.page) ↔ (p ∈ a.pages → p ∈ a.sweep.2.pages) := by
    rw [← not_iff_not, Classical.not_imp, ← mem_released_iff sound, List.mem_map]
    simp only [not_forall, not_not, exists_prop, eq_comm]
  rw [(tracks_foldl_remove tracks _).represents.lookup_iff, tracks.represents.lookup_iff,
    Finset.mem_filter, given, and_right_comm]

theorem counts_sweep (filed : a.Filed) :
    a.sweep.1.liveBlocks + a.sweep.1.freedBlocks = a.liveBlocks ∧
      a.sweep.1.liveBytes + a.sweep.1.freedBytes = a.liveBytes ∧
      a.sweep.1.pagesReleased + a.sweep.2.slabs.size = a.slabs.size := by
  have kept : ∀ f : Slab → Nat, (∀ s, s.used = 0 → f s = 0) →
      total f a.keptSlabs = total (fun s => f s.sweep) a.slabs.toList := fun f zero => by
    rw [keptSlabs, total_filter_of_zero _ fun s unused => zero s (by simpa using unused), total_map]
  have freed : ∀ f : Nat × Nat → Nat,
      total f (a.slabs.toList.map fun s => (s.dead.length, s.page.blockSize)) =
        total (fun s => f (s.dead.length, s.page.blockSize)) a.slabs.toList := fun f => total_map ..
  have each : ∀ s ∈ a.slabs.toList, s.sweep.used + s.dead.length = s.used := fun s hs => by
    have parts := Slab.dead_add_used_sweep (filed.sound.slab s (Array.mem_toList_iff.1 hs))
    lia
  refine ⟨?_, ?_, ?_⟩
  · change total (·.used) a.keptSlabs + total (fun f : Nat × Nat => f.1) (a.slabs.toList.map _) = _
    rw [kept _ fun _ zero => zero, freed, ← total_add, filed.balanced.liveBlocks]
    exact total_congr each
  · change total (fun s => s.used * s.page.blockSize) a.keptSlabs +
      total (fun f : Nat × Nat => f.1 * f.2) (a.slabs.toList.map _) = _
    rw [kept _ fun _ zero => by rw [zero, Nat.zero_mul], freed, ← total_add,
      filed.balanced.liveBytes]
    refine total_congr fun s hs => ?_
    rw [← each s hs, Nat.add_mul]
    rfl
  · have parts := total_filter_add (fun _ => 1) (fun s : Slab => s.used = 0) (fun s => 0 < s.used)
      (a.slabs.toList.map Slab.sweep) fun s _ => by simp [Nat.pos_iff_ne_zero]
    simp only [total_const, Nat.mul_one, List.length_map, Array.length_toList] at parts
    exact parts

theorem privateBytes_sweep (filed : a.Filed) :
    a.sweep.2.privateBytes + total (·.size) (a.releasedSlabs.map (·.page)) = a.privateBytes := by
  have kept : a.sweep.2.privateBytes = total (·.page.size) a.keptSlabs :=
    (filed_sweep filed).balanced.privateBytes
  rw [total_map, kept, filed.balanced.privateBytes]
  exact total_size_keptSlabs_add a

theorem exists_freed (filed : a.Filed) :
    ∃ blocks : List Block, blocks.Nodup ∧ (∀ c, c ∈ blocks ↔ a.Doomed c) ∧
      a.sweep.1.freedBlocks = blocks.length ∧ a.sweep.1.freedBytes = total (·.size) blocks := by
  classical
  have swept := filed_sweep filed
  have once := (nodup_blocks filed.sound).filter fun c => decide (¬ a.Marks c.addr)
  have dead : ∀ c, c ∈ a.blocks.filter (fun c => decide (¬ a.Marks c.addr)) ↔ a.Doomed c := by
    intro c
    rw [List.mem_filter, mem_blocks filed.sound, decide_eq_true_iff]
    exact Iff.rfl
  have parts := counts_of_perm swept filed (blocks_perm swept.sound filed.sound once
    (fun c member held => ((dead c).1 member).2 ((holds_sweep filed.sound c).1 held).2)
    fun c => by
      rw [dead, holds_sweep filed.sound, Doomed]
      tauto)
  obtain ⟨blocks, bytes, -⟩ := counts_sweep filed
  have live : a.sweep.2.liveBlocks = a.sweep.1.liveBlocks := rfl
  have live' : a.sweep.2.liveBytes = a.sweep.1.liveBytes := rfl
  exact ⟨_, once, dead, by lia, by lia⟩

theorem swept_sweep (filed : a.Filed) : a.Swept a.sweep.1 a.sweep.2 where
  holds_iff := holds_sweep filed.sound
  pages_iff := mem_pages_sweep_iff filed
  blanked p left x inside doomed := by
    obtain ⟨i, s, found, rfl, word⟩ := read_sweep filed left inside
    rw [word, if_pos ((isDead_blockOfWord_iff filed found inside).2 doomed)]
  untouched p left x inside spared := by
    obtain ⟨i, s, found, rfl, word⟩ := read_sweep filed left inside
    rw [word, if_neg]
    intro dead
    obtain ⟨c, doomed, within⟩ := (isDead_blockOfWord_iff filed found inside).1 dead
    exact spared c doomed within
  lost p owned gone x inside := by
    cases looked : a.sweep.2.directory.lookup x with
    | none => rfl
    | some q =>
      obtain ⟨before, left⟩ := (lookup_sweep filed x q).1 looked
      have here := (filed.balanced.tracks.represents.lookup_iff x p).2
        ⟨owned, Page.contains_iff.1 inside⟩
      obtain rfl := Option.some.inj (here.symm.trans before)
      exact absurd left gone
  found x apart := by
    refine Option.ext fun p => ?_
    rw [lookup_sweep filed]
    refine and_iff_left_of_imp fun before => ?_
    obtain ⟨owned, inside⟩ := (filed.balanced.tracks.represents.lookup_iff x p).1 before
    by_contra gone
    simpa [Page.contains_iff.2 inside] using apart p owned gone
  represents := (filed_sweep filed).balanced.tracks.represents
  elsewhere _ installed := ⟨_, rfl, lookup_foldl_released filed.sound installed⟩
  freed := exists_freed filed
  live := by
    have swept := filed_sweep filed
    exact ⟨a.sweep.2.blocks, nodup_blocks swept.sound, fun c => mem_blocks swept.sound,
      (length_blocks_of_filed swept).symm, (total_size_blocks_of_filed swept).symm⟩
  released :=
    ⟨a.releasedSlabs.map (·.page), nodup_released filed.sound, mem_released_iff filed.sound,
      List.length_map _ |>.symm, privateBytes_sweep filed⟩
  byWords s owned := Slab.sweepWords_eq (filed.sound.slab s owned) (filed.balanced.tidy s owned)

/-- **A sweep is exact for any marks**: whatever an arena has been through, whatever its blocks hold
and whichever of them are marked, a sweep frees those that are not, and nothing else. -/
theorem swept_of_exercised {hugeThreshold heapLimit : Nat}
    (used : Arena.Exercised hugeThreshold heapLimit a) (same : m.clearMarks = a.clearMarks) :
    m.Swept m.sweep.1 m.sweep.2 :=
  swept_sweep (filed_congr same (filed_of_exercised used))

def crowded : Arena :=
  (((pairInUse.allocate rising 100 .pointerFree).2.write 65536 7).write 98312 9)

def crowdedMarked : Arena := (crowded.testAndMark ⟨0, 65536, 65536, .small .raw, 32768⟩ 1).2

theorem swept_of_exercised_crowded :
    Arena.Exercised 32768 0 crowded ∧ crowdedMarked.clearMarks = crowded.clearMarks ∧
      crowdedMarked.Swept crowdedMarked.sweep.1 crowdedMarked.sweep.2 ∧
      crowdedMarked.sweep.1 = ⟨1, 32768, 2, 32896, 1⟩ ∧
      crowdedMarked.Doomed ⟨65536, 32768⟩ ∧ crowdedMarked.read 65536 = 7 ∧
      crowdedMarked.sweep.2.read 65536 = 0 ∧ crowdedMarked.sweep.2.read 98312 = 9 ∧
      (crowdedMarked.directory.lookup 131072).isSome ∧
      crowdedMarked.sweep.2.directory.lookup 131072 = none := by
  have full : Arena.Exercised 32768 0 (pairInUse.allocate rising 100 .pointerFree).2 :=
    .allocate 100 .pointerFree (.allocate 20000 .raw (.allocate 32768 .raw .new isAligned_rising)
      isAligned_rising) isAligned_rising
  have first : (pairInUse.allocate rising 100 .pointerFree).2.Holds ⟨65536, 32768⟩ := by
    decide +kernel
  have once : Arena.Exercised 32768 0
      ((pairInUse.allocate rising 100 .pointerFree).2.write 65536 7) :=
    full.write 7 first ⟨by decide, by decide⟩
  have second : ((pairInUse.allocate rising 100 .pointerFree).2.write 65536 7).Holds
      ⟨98304, 32768⟩ := by decide +kernel
  have used : Arena.Exercised 32768 0 crowded := once.write 9 second ⟨by decide, by decide⟩
  have same : crowdedMarked.clearMarks = crowded.clearMarks := clearMarks_testAndMark _ _ _
  have swept := swept_of_exercised used same
  have held : crowdedMarked.Holds ⟨65536, 32768⟩ := by decide +kernel
  have freed : ¬ crowdedMarked.sweep.2.Holds ⟨65536, 32768⟩ := by decide +kernel
  have doomed : crowdedMarked.Doomed ⟨65536, 32768⟩ :=
    ⟨held, fun marked => freed ((swept.holds_iff _).2 ⟨held, marked⟩)⟩
  have left : ⟨0, 65536, 65536, .small .raw, 32768⟩ ∈ crowdedMarked.sweep.2.pages := by
    decide +kernel
  exact ⟨used, same, swept, by decide +kernel, doomed, by decide +kernel,
    swept.blanked _ left 65536 (by decide) ⟨_, doomed, by decide, by decide⟩, by decide +kernel,
    by decide +kernel, by decide +kernel⟩

end Arena

end MarkSweep
