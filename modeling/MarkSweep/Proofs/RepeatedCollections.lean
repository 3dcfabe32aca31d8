import MarkSweep.Proofs.CollectionExactness
import MarkSweep.Proofs.HeapLogs

set_option autoImplicit false

namespace MarkSweep

namespace Slab

theorem isDead_sweep (s : Slab) (k : Nat) : s.sweep.isDead k = false := by
  have marks : s.sweep.marks = s.marks := rfl
  rw [isDead, get_allocated_sweep, marks]
  cases s.allocated.get k <;> cases s.marks.get k <;> rfl

theorem dead_sweep (s : Slab) : s.sweep.dead = [] := by
  rw [dead, List.filter_eq_nil_iff]
  intro k _
  simp [isDead_sweep]

theorem sweep_sweep (s : Slab) : s.sweep.sweep = s.sweep := by
  have allocated : s.sweep.allocated.inter s.sweep.marks = s.sweep.allocated := by
    refine Bitmap.ext rfl fun k => ?_
    have marks : s.sweep.marks = s.marks := rfl
    rw [Bitmap.get_inter, get_allocated_sweep, marks, Bool.and_assoc, Bool.and_self]
  have contents : s.sweep.contents.keep (fun word => !s.sweep.isDead (s.sweep.blockOfWord word)) =
      s.sweep.contents := by
    refine Words.ext fun word => ?_
    simp [Words.get_keep, isDead_sweep]
  have used : s.sweep.used - s.sweep.dead.length = s.sweep.used := by
    rw [dead_sweep]
    rfl
  rw [sweep, allocated, contents, used]
  rfl

end Slab

def SweepReport.unfreed (r : SweepReport) : SweepReport :=
  { liveBlocks := r.liveBlocks, liveBytes := r.liveBytes }

namespace Arena

variable {a b : Arena}

theorem sweep_of_mem_keptSlabs {s : Slab} (kept : s ∈ a.keptSlabs) :
    s.sweep = s ∧ s.dead = [] ∧ 0 < s.used := by
  obtain ⟨i, t, -, rfl, used⟩ := mem_keptSlabs.1 kept
  exact ⟨t.sweep_sweep, t.dead_sweep, used⟩

theorem map_sweep_keptSlabs (a : Arena) : a.keptSlabs.map Slab.sweep = a.keptSlabs := by
  refine (List.map_congr_left fun s kept => ?_).trans (List.map_id _)
  exact (sweep_of_mem_keptSlabs kept).1

theorem keptSlabs_sweep (a : Arena) : a.sweep.2.keptSlabs = a.keptSlabs := by
  change (a.keptSlabs.map Slab.sweep).filter _ = _
  rw [map_sweep_keptSlabs, List.filter_eq_self]
  exact fun s kept => decide_eq_true (sweep_of_mem_keptSlabs kept).2.2

theorem releasedSlabs_sweep (a : Arena) : a.sweep.2.releasedSlabs = [] := by
  change (a.keptSlabs.map Slab.sweep).filter _ = _
  rw [map_sweep_keptSlabs, List.filter_eq_nil_iff]
  intro s kept
  have used := (sweep_of_mem_keptSlabs kept).2.2
  simp only [decide_eq_true_eq]
  omega

theorem sweep_eq (a : Arena) : a.sweep =
    ({ liveBlocks := total (·.used) a.keptSlabs
       liveBytes := total (fun s => s.used * s.page.blockSize) a.keptSlabs
       freedBlocks := total (·.dead.length) a.slabs.toList
       freedBytes := total (fun s => s.dead.length * s.page.blockSize) a.slabs.toList
       pagesReleased := a.releasedSlabs.length },
      { a with
        directory := a.releasedSlabs.foldl (fun d s => d.remove s.page) a.directory
        slabs := a.keptSlabs.toArray
        byBase := indexByBase a.keptSlabs
        roomy := indexRoomy a.keptSlabs
        privateBytes := a.privateBytes - total (·.page.size) a.releasedSlabs
        liveBlocks := total (·.used) a.keptSlabs
        liveBytes := total (fun s => s.used * s.page.blockSize) a.keptSlabs }) := by
  rw [← total_map (·.1) (fun s : Slab => (s.dead.length, s.page.blockSize)),
    ← total_map (fun f => f.1 * f.2) (fun s : Slab => (s.dead.length, s.page.blockSize))]
  rfl

theorem sweep_sweep (a : Arena) : a.sweep.2.sweep = (a.sweep.1.unfreed, a.sweep.2) := by
  have slabs : a.sweep.2.slabs.toList = a.keptSlabs := rfl
  have nothing : ∀ f : Slab → Nat, total (fun s => s.dead.length * f s) a.keptSlabs = 0 := by
    intro f
    refine (total_congr fun s kept => ?_).trans ((total_const 0 _).trans (Nat.mul_zero _))
    rw [(sweep_of_mem_keptSlabs kept).2.1, List.length_nil, Nat.zero_mul]
  have none_freed : total (fun s : Slab => s.dead.length) a.keptSlabs = 0 := by
    simpa only [Nat.mul_one] using nothing fun _ => 1
  rw [sweep_eq a.sweep.2, keptSlabs_sweep, releasedSlabs_sweep, slabs, none_freed, nothing]
  rw [sweep_eq a]
  rfl

/-- If only blocks in use are marked, then after a sweep these are the blocks in use. -/
theorem markBit_sweep (marked : ∀ i k, a.markBit i k = true → ∃ x, a.Places x i k) (i k : Nat) :
    a.sweep.2.markBit i k = true ↔ ∃ x, a.sweep.2.Places x i k := by
  have slabs : a.sweep.2.slabs[i]? = a.keptSlabs[i]? := by
    change a.keptSlabs.toArray[i]? = _
    rw [List.getElem?_toArray]
  unfold markBit Places
  rw [slabs]
  cases found : a.keptSlabs[i]? with
  | none => simp
  | some t =>
    obtain ⟨j, s, there, rfl, -⟩ := mem_keptSlabs.1 (List.mem_of_getElem? found)
    have marks : s.sweep.marks = s.marks := rfl
    simp only [Option.any_some, marks, Option.some.injEq, exists_and_left, exists_eq_left',
      Slab.isAllocated_sweep, exists_eq', and_true, Bool.and_eq_true]
    refine ⟨fun bit => ⟨?_, bit⟩, And.right⟩
    obtain ⟨x, s', there', allocated, -⟩ := marked j k (by rw [markBit, there]; exact bit)
    obtain rfl := Option.some.inj (there.symm.trans there')
    exact allocated

theorem exists_places_of_markBit {scans : List Addr} (marked : a.clearMarks.MarkedAt scans b)
    {i k : Nat} (bit : b.markBit i k = true) : ∃ x, b.Places x i k := by
  obtain old | ⟨x, -, place⟩ := (marked.2 i k).1 bit
  · simp [markBit, getElem?_slabs_clearMarks, Option.any_map] at old
  · exact ⟨x, (places_congr marked.1 x i k).2 place⟩

/-- Where the marks are those of all blocks in use, marking all of them anew ends alike. -/
theorem eq_of_marks_all (sound : a.Sound) (full : ∀ i k, a.markBit i k = true ↔ ∃ x, a.Places x i k)
    {scans : List Addr} (marked : a.clearMarks.MarkedAt scans b)
    (all : ∀ c, a.Holds c → b.Marks c.addr) : b = a := by
  have same : b.clearMarks = a.clearMarks := marked.1.trans (clearMarks_clearMarks a)
  refine eq_of_markBit_eq same fun i k => ?_
  rw [Bool.eq_iff_iff, full]
  constructor
  · intro bit
    obtain ⟨x, place⟩ := exists_places_of_markBit marked bit
    exact ⟨x, (places_congr same x i k).1 place⟩
  · rintro ⟨x, place⟩
    obtain ⟨s, found, allocated, rfl⟩ := place
    obtain ⟨j, l, place', bit⟩ := all _ (holds_iff.2 ⟨i, s, k, found, allocated, rfl⟩)
    have place := (places_congr same _ i k).2 ⟨s, found, allocated, rfl⟩
    obtain ⟨rfl, rfl⟩ := places_unique (sound_congr same sound) place place'
    exact bit

end Arena

namespace Heap

variable {env env' : Embedding} {h g : Heap}

theorem exists_scans_of_mark {report : MarkReport} (trusted : env.IsSound) (sound : h.arena.Sound)
    (marking : h.mark env = (.ok report, g)) :
    ∃ scans, scans.Nodup ∧ report.marked = scans.length ∧
      h.arena.clearMarks.MarkedAt scans g.arena ∧ ∀ x ∈ scans, h.arena.clearMarks.Starts x := by
  obtain ⟨m, phase, rfl⟩ := mark_cases marking
  have blank := Arena.sound_congr (Arena.clearMarks_clearMarks h.arena) sound
  exact Marker.exists_scans_of_markPhaseBy blank (Arena.not_marks_clearMarks h.arena)
    trusted.2.2.1 trusted.2.2.2 rfl phase

theorem marked_of_mark {report : MarkReport} (trusted : env.IsSound) (sound : h.arena.Sound)
    (marking : h.mark env = (.ok report, g)) : report.marked = g.arena.sweep.1.liveBlocks := by
  obtain ⟨scans, nodup, count, marked, starts⟩ := exists_scans_of_mark trusted sound marking
  have sound' := Arena.sound_congr (clearMarks_mark trusted marking) sound
  have swept := Arena.sound_sweep sound'
  have live : g.arena.sweep.1.liveBlocks = g.arena.sweep.2.blocks.length := by
    rw [Arena.length_blocks swept, Arena.sweep_eq]
  have nodup' : (g.arena.sweep.2.blocks.map (·.addr)).Nodup := by
    refine (Arena.nodup_blocks swept).map_on fun b hb c hc same => ?_
    exact Arena.eq_of_addr_eq swept ((Arena.mem_blocks swept).1 hb) ((Arena.mem_blocks swept).1 hc)
      same
  have unmarked := Arena.not_marks_clearMarks h.arena
  have same : ∀ x, x ∈ scans ↔ x ∈ g.arena.sweep.2.blocks.map (·.addr) := by
    intro x
    simp only [List.mem_map, Arena.mem_blocks swept, Arena.holds_sweep sound']
    constructor
    · intro hx
      have there := (marked.marks_iff (starts x hx)).2 (.inr hx)
      obtain ⟨b, held, rfl⟩ :=
        Arena.starts_iff_holds.1 ((Arena.starts_congr marked.1 x).2 (starts x hx))
      exact ⟨b, ⟨held, there⟩, rfl⟩
    · rintro ⟨b, ⟨held, there⟩, rfl⟩
      have start := (Arena.starts_congr marked.1 _).1 (Arena.starts_iff_holds.2 ⟨b, held, rfl⟩)
      exact ((marked.marks_iff start).1 there).resolve_left (unmarked _)
  have lengths := ((List.perm_ext_iff_of_nodup nodup nodup').2 same).length_eq
  rwa [List.length_map, ← count, ← live] at lengths

/-- Whether a collector sees the same in two heaps, each with the memory around it: the same words
in the root slots and on the threads, and the same types. -/
structure LooksAs (around : Surroundings) (h : Heap) (around' : Surroundings) (g : Heap) :
    Prop where
  layouts : around'.layout? = around.layout?
  roots : g.rootValues around' = h.rootValues around
  threads : g.threads.active.map (·.scannedWords around') =
    h.threads.active.map (·.scannedWords around)

variable {around around' : Surroundings}

theorem LooksAs.of_sameRoots (looks : h.LooksAs around around' g) {k : Heap}
    (same : h.SameRoots k) : k.LooksAs around around' g where
  layouts := looks.layouts
  roots := by
    have values : k.rootValues around = h.rootValues around := by
      unfold rootValues
      rw [same.roots]
      exact List.map_congr_left fun slot _ => same.slotValue_eq slot
    rw [looks.roots, values]
  threads := by rw [looks.threads, same.threads]

theorem Retained.of_looksAs (looks : h.LooksAs around around' g) (arena : g.arena = h.arena)
    (scanned : ∀ r ∈ g.threads.active, ∃ words, r.scannedWords around' = .ok words) {b : Block}
    (retained : h.Retained around b) : g.Retained around' b := by
  induction retained with
  | @root slot b held registered named =>
    have shown : h.slotValue around slot ∈ g.rootValues around' := by
      rw [looks.roots]
      exact List.mem_map_of_mem (Array.mem_toList_iff.2 registered)
    obtain ⟨slot', registered', same⟩ := List.mem_map.1 shown
    rw [← same] at named
    exact .root (arena ▸ held) (Array.mem_toList_iff.1 registered') named
  | @thread r w b held registered shown inside =>
    have seen : r.scannedWords around ∈ g.threads.active.map (·.scannedWords around') := by
      rw [looks.threads]
      exact List.mem_map_of_mem registered
    obtain ⟨r', registered', same⟩ := List.mem_map.1 seen
    obtain ⟨words, found⟩ := scanned r' registered'
    have member := (ThreadRecord.mem_scannedWords (same.symm.trans found)).2 shown
    exact .thread (arena ▸ held) registered' ((ThreadRecord.mem_scannedWords found).1 member) inside
  | @edge s k w b owned allocated before refers held named ih =>
    have refers' : s.Refers around' k w := by
      cases refers with
      | raw kind inside => exact .raw kind inside
      | typed kind isSet known flagged inside =>
        exact .typed kind isSet (looks.layouts ▸ known) flagged inside
    exact .edge (arena ▸ owned) allocated ih refers' (arena ▸ held) named

theorem scannedWords_of_mark {report : MarkReport} (trusted : env.IsSound)
    (sound : h.arena.Sound) (marking : h.mark env = (.ok report, g)) :
    ∀ r ∈ h.threads.active, ∃ words, r.scannedWords env.toSurroundings = .ok words := by
  obtain ⟨m, phase, -⟩ := mark_cases marking
  have blank := Arena.sound_congr (Arena.clearMarks_clearMarks h.arena) sound
  exact (Marker.marks_iff_of_markPhaseBy blank (Arena.not_marks_clearMarks h.arena)
    trusted.2.2.1 trusted.2.2.2 rfl phase).1

section Twice

variable {h₁ h₂ : Heap} {caller caller' : Option Caller} {patience patience' : Patience}
  {one two : CollectionReport}

theorem retained_of_collect (trusted : env.IsSound) (sound : h.arena.Sound)
    (first : h.collect env caller patience = (.done (some one), h₁))
    (looks : (h.parkedBy caller).LooksAs env.toSurroundings env'.toSurroundings
      (h₁.parkedBy caller'))
    (scanned : ∀ r ∈ (h₁.parkedBy caller').threads.active,
      ∃ words, r.scannedWords env'.toSurroundings = .ok words) {b : Block}
    (held : h₁.arena.Holds b) : (h₁.parkedBy caller').Retained env'.toSurroundings b := by
  obtain ⟨same, carries, left⟩ := collect_spec first trusted sound
  have before := ((left one rfl b).1 held).2
  have parked : (h.parkedBy caller).arena.Sound := (arena_parkedBy h caller).symm ▸ sound
  have still : (h₁.parkedBy caller).Retained env.toSurroundings b := by
    refine before.carried parked same fun c retained => ?_
    rw [arena_parkedBy, arena_parkedBy]
    exact carries c retained
  refine still.of_looksAs (looks.of_sameRoots same) ?_ scanned
  rw [arena_parkedBy, arena_parkedBy]

/-- The second mark phase sets the marks that the first one left. -/
theorem arena_of_second_mark (trusted : env.IsSound) (trusted' : env'.IsSound)
    (sound : h.arena.Sound) (first : h.collect env caller patience = (.done (some one), h₁))
    (looks : (h.parkedBy caller).LooksAs env.toSurroundings env'.toSurroundings
      (h₁.parkedBy caller')) {p : Safepoint} {report : MarkReport} {f : Heap}
    (marking : ((h₁.parkedBy caller').stoppedAt Bystanders.none.whileStopping p).mark env' =
      (.ok report, f)) : f.arena = h₁.arena := by
  have sound₁ := sound_collect first trusted sound
  have parked₁ : (h₁.parkedBy caller').arena = h₁.arena := arena_parkedBy h₁ caller'
  have stopped : ((h₁.parkedBy caller').stoppedAt Bystanders.none.whileStopping p).arena =
    h₁.arena := parked₁
  obtain ⟨scans, -, -, marked, -⟩ := exists_scans_of_mark trusted' (stopped ▸ sound₁) marking
  rw [stopped] at marked
  refine Arena.eq_of_marks_all sound₁ ?_ marked fun c held => ?_
  · obtain ⟨p₁, f₁, marking₁, -, arena⟩ := collect_done first
    have stopped₁ : ((h.parkedBy caller).stoppedAt Bystanders.none.whileStopping p₁).arena =
      h.arena := arena_parkedBy h caller
    obtain ⟨scans₁, -, -, marked₁, -⟩ := exists_scans_of_mark trusted (stopped₁ ▸ sound) marking₁
    rw [arena]
    exact Arena.markBit_sweep fun i k => Arena.exists_places_of_markBit marked₁
  · have scanned := scannedWords_of_mark trusted' (stopped ▸ sound₁) marking
    have retained := retained_of_collect trusted sound first looks scanned held
    refine (marks_iff_retained marking trusted' (stopped ▸ sound₁) (stopped ▸ held)).2 ?_
    have same : (h₁.parkedBy caller').SameRoots
      ((h₁.parkedBy caller').stoppedAt Bystanders.none.whileStopping p) := ⟨rfl, rfl, rfl⟩
    exact (retained_congr (parked₁ ▸ sound₁) same rfl c).2 retained

/-- A collection after another that saw the same frees nothing, marks and counts the same blocks and
leaves the arena as it was. -/
theorem arena_eq_of_collect_twice {config : Config} (run : Reachable config h)
    (admitted : h.Admits (.collect env caller patience))
    (first : h.collect env caller patience = (.done (some one), h₁))
    (admitted' : h₁.Admits (.collect env' caller' patience'))
    (second : h₁.collect env' caller' patience' = (.done (some two), h₂))
    (looks : (h.parkedBy caller).LooksAs env.toSurroundings env'.toSurroundings
      (h₁.parkedBy caller')) :
    two.sweep.freedBlocks = 0 ∧ two.sweep.freedBytes = 0 ∧ two.sweep.pagesReleased = 0 ∧
      two.sweep.liveBlocks = one.sweep.liveBlocks ∧ two.sweep.liveBytes = one.sweep.liveBytes ∧
      two.mark.marked = one.mark.marked ∧ h₂.arena = h₁.arena := by
  have sound := run.sound
  have sound₁ := sound_collect first admitted.1 sound
  obtain ⟨p, f, marking, swept, arena⟩ := collect_done first
  obtain ⟨p', f', marking', swept', arena'⟩ := collect_done second
  have again := arena_of_second_mark admitted.1 admitted'.1 sound first looks marking'
  have counts : two.sweep = one.sweep.unfreed := by
    rw [swept', again, arena, Arena.sweep_sweep, swept]
  have marked : one.mark.marked = one.sweep.liveBlocks := by
    rw [swept]
    exact marked_of_mark admitted.1 ((arena_parkedBy h caller).symm ▸ sound) marking
  have marked' : two.mark.marked = two.sweep.liveBlocks := by
    rw [swept']
    exact marked_of_mark admitted'.1 ((arena_parkedBy h₁ caller').symm ▸ sound₁) marking'
  refine ⟨?_, ?_, ?_, ?_, ?_, ?_, ?_⟩
  iterate 5
    · rw [counts]
      rfl
  · rw [marked', marked, counts]
    rfl
  · rw [arena', again, arena, Arena.sweep_sweep]

theorem looksAs_of_collect (trusted : env.IsSound) (sound : h.arena.Sound)
    (first : h.collect env caller patience = (.done (some one), h₁)) :
    (h.parkedBy caller).LooksAs env.toSurroundings env.toSurroundings (h₁.parkedBy caller) := by
  have roots := (collect_spec first trusted sound).1
  have itself : (h₁.parkedBy caller).LooksAs env.toSurroundings env.toSurroundings
    (h₁.parkedBy caller) := ⟨rfl, rfl, rfl⟩
  exact itself.of_sameRoots roots.symm

end Twice

theorem arena_eq_of_collect_twice_sample :
    Reachable (.testing 0) sample ∧
      sample.Admits (.collect .sample (some sampleCaller) .forever) ∧
      ∃ one h₁ two h₂,
        sample.collect .sample (some sampleCaller) .forever = (.done (some one), h₁) ∧
        one.sweep.freedBlocks = 1 ∧
        h₁.Admits (.collect .sample (some sampleCaller) .limited) ∧
        h₁.collect .sample (some sampleCaller) .limited = (.done (some two), h₂) ∧
        (sample.parkedBy (some sampleCaller)).LooksAs Embedding.sample.toSurroundings
          Embedding.sample.toSurroundings (h₁.parkedBy (some sampleCaller)) ∧
        two.sweep.freedBlocks = 0 ∧ two.sweep.freedBytes = 0 ∧ two.sweep.pagesReleased = 0 ∧
        two.sweep.liveBlocks = one.sweep.liveBlocks ∧ two.sweep.liveBytes = one.sweep.liveBytes ∧
        two.mark.marked = one.mark.marked ∧ h₂.arena = h₁.arena := by
  have trusted := Embedding.isSound_sample
  have admitted : sample.Admits (.collect .sample (some sampleCaller) .forever) := by
    refine ⟨trusted, ?_⟩
    rintro c ⟨⟩
    exact hasCaller_sample
  have first : (sample.collect .sample (some sampleCaller) .forever).1 =
      .done (some ⟨⟨3, 1, 30, 3⟩, ⟨3, 12288, 1, 4096, 0⟩⟩) := by decide +kernel
  have admitted' : ((sample.collect .sample (some sampleCaller) .forever).2).Admits
      (.collect .sample (some sampleCaller) .limited) := by
    refine ⟨trusted, ?_⟩
    rintro c ⟨⟩
    exact ⟨by decide +kernel, rfl⟩
  have second : ((sample.collect .sample (some sampleCaller) .forever).2.collect .sample
      (some sampleCaller) .limited).1 =
      .done (some ⟨⟨3, 1, 30, 3⟩, ⟨3, 12288, 0, 0, 0⟩⟩) := by decide +kernel
  have looks := looksAs_of_collect trusted reachable_sample.sound (Prod.ext first rfl)
  exact ⟨reachable_sample, admitted, _, _, _, _, Prod.ext first rfl, rfl, admitted',
    Prod.ext second rfl, looks, arena_eq_of_collect_twice reachable_sample admitted
      (Prod.ext first rfl) admitted' (Prod.ext second rfl) looks⟩

end Heap

end MarkSweep
