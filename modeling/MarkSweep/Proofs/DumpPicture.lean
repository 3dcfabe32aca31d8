import MarkSweep.Proofs.DumpReading
import MarkSweep.Proofs.HeapLogs

set_option autoImplicit false

namespace MarkSweep

structure Slab.IsRecorded (s : Slab) (r : PageRecord) : Prop where
  base : r.base.toNat = s.page.base
  size : r.size.toNat = s.page.size
  kind : r.kind.toNat = s.page.kind.code
  scanKind : r.scanKind.toNat = s.page.kind.contents.code
  blockSize : r.blockSize.toNat = min s.page.blockSize (UInt32.size - 1)
  blockCount : r.blockCount = s.page.blockCount
  isLive : ∀ i, r.isLive i = s.isAllocated i
  liveCount : r.liveCount = (List.range s.page.blockCount).countP s.isAllocated

structure ThreadRecord.IsShown (r : ThreadRecord) (t : ThreadImage) : Prop where
  stackTop : t.stackTop = .ofNat r.stackTop
  sp : t.sp = .ofNat r.snapshot.sp
  words : t.words = r.snapshot.registers.toList ++ r.snapshot.below.toList

/-- Whether a word is what a typed block in use names as its type. -/
def Arena.Names (a : Arena) (w : UInt64) : Prop :=
  w ≠ 0 ∧ ∃ s ∈ a.slabs, s.page.kind.contents = .typed ∧
    ∃ i, s.isAllocated i = true ∧ s.read (s.page.blockAddr i) = w

structure Heap.IsPictured (env : Embedding) (h : Heap) (d : HeapDump) : Prop where
  pages : ∃ row : List Slab, row.Perm h.arena.slabs.toList ∧
    List.Forall₂ Slab.IsRecorded row d.pages
  ascending : d.pages.Pairwise fun r t => r.base < t.base
  roots : d.roots = h.roots.slots.toList.map fun slot =>
    (env.slotAddr slot, h.slotValue env.toSurroundings slot)
  threads : List.Forall₂ (fun e t => ∃ r, h.threads.record? e.2 = some r ∧ r.thread = e.1 ∧
    r.IsShown t) h.threads.registered d.threads
  threadsOnce : (h.threads.registered.map (·.1)).Nodup
  types : ∀ t, t ∈ d.types ↔ ∃ w layout, h.arena.Names w ∧ env.layout? w = some layout ∧
    t = ⟨w, layout.name, layout.mapOffset, layout.pointerMap.words.toList⟩
  typesOnce : (d.types.map (·.identity)).Nodup
  typesAll : h.TypesKnown env.toSurroundings → ∀ w, h.arena.Names w →
    ∃ t ∈ d.types, t.identity = w
  pageOf_none : ∀ a : UInt64, h.arena.directory.lookup a.toNat = none → d.pageOf? a = none
  pageOf_some : ∀ (a : UInt64) (p : Page), h.arena.directory.lookup a.toNat = some p →
    ∃ i r s, d.pageOf? a = some i ∧ d.pages[i]? = some r ∧ s ∈ h.arena.slabs ∧ s.page = p ∧
      s.IsRecorded r

theorem testBit_foldl_range {f : Nat → Bool} {n : Nat} (few : n ≤ 8) (j : Nat) :
    ((List.range n).foldl
      (fun (b : UInt8) i => if f i then b ||| (1 <<< UInt8.ofNat i) else b) 0).toNat.testBit j =
        (decide (j < n) && f j) := by
  induction n with
  | zero => simp
  | succ n ih =>
    have ih := ih (Nat.le_of_succ_le few)
    have bit : ∀ n < 8, ((1 : UInt8) <<< UInt8.ofNat n).toNat = 1 <<< n := by decide
    rw [List.range_succ, List.foldl_append, List.foldl_cons, List.foldl_nil]
    split
    · next set =>
      rw [UInt8.toNat_or, Nat.testBit_or, ih, bit n few, Nat.one_shiftLeft, Nat.testBit_two_pow]
      by_cases same : n = j
      · subst same
        simp [set]
      · have below : j < n + 1 ↔ j < n := by lia
        simp [same, below]
    · next clear =>
      rw [ih]
      by_cases same : n = j
      · subst same
        simpa using clear
      · have below : j < n + 1 ↔ j < n := by lia
        simp [below]

namespace Slab

variable {s : Slab}

theorem getElem?_liveBytes (s : Slab) (k : Nat) : s.liveBytes[k]? =
    if k < (s.page.blockCount + 7) / 8 then some ((List.range 8).foldl
      (fun b i => if s.isAllocated (8 * k + i) then b ||| (1 <<< UInt8.ofNat i) else b) 0)
    else none := by
  unfold liveBytes
  by_cases inside : k < (s.page.blockCount + 7) / 8 <;> simp [inside]

theorem isAllocated_eq_false {i : Nat} (beyond : s.page.blockCount ≤ i) :
    s.isAllocated i = false := by
  simp [isAllocated, Nat.not_lt.2 beyond]

theorem isLive_record (s : Slab) (i : Nat) : s.record.isLive i = s.isAllocated i := by
  have bytes : s.record.live = s.liveBytes := rfl
  rw [PageRecord.isLive, bytes, getElem?_liveBytes]
  by_cases inside : i / 8 < (s.page.blockCount + 7) / 8
  · rw [if_pos inside]
    simp only
    rw [testBit_foldl_range (Nat.le_refl 8), Nat.div_add_mod]
    simp [Nat.mod_lt i (show 0 < 8 by decide)]
  · rw [if_neg inside]
    exact (isAllocated_eq_false (by lia)).symm

theorem countP_range_mul (f : Nat → Bool) (m : Nat) :
    total (fun k => (List.range 8).countP fun i => f (8 * k + i)) (List.range m) =
      (List.range (8 * m)).countP f := by
  induction m with
  | zero => rfl
  | succ m ih =>
    rw [List.range_succ (n := m), total_append, ih, Nat.mul_succ, List.range_add, List.countP_append,
      List.countP_map]
    rfl

theorem liveCount_record (s : Slab) :
    s.record.liveCount = (List.range s.page.blockCount).countP s.isAllocated := by
  have enough : ∃ e, 8 * ((s.page.blockCount + 7) / 8) = s.page.blockCount + e :=
    ⟨8 * ((s.page.blockCount + 7) / 8) - s.page.blockCount, by lia⟩
  obtain ⟨e, whole⟩ := enough
  change total (fun b : UInt8 => (List.range 8).countP b.toNat.testBit) s.liveBytes = _
  have bits : ∀ k, (List.range 8).countP ((List.range 8).foldl
      (fun (b : UInt8) i => if s.isAllocated (8 * k + i) then b ||| (1 <<< UInt8.ofNat i) else b)
        0).toNat.testBit = (List.range 8).countP fun i => s.isAllocated (8 * k + i) := by
    intro k
    refine List.countP_congr fun i hi => ?_
    rw [testBit_foldl_range (Nat.le_refl 8)]
    simp [List.mem_range.1 hi]
  rw [liveBytes, total_map, total_congr fun k _ => bits k, countP_range_mul, whole, List.range_add,
    List.countP_append]
  have none : (List.map (s.page.blockCount + ·) (List.range e)).countP s.isAllocated = 0 := by
    rw [List.countP_eq_zero]
    intro i hi
    obtain ⟨j, -, rfl⟩ := List.mem_map.1 hi
    simp [isAllocated_eq_false (s := s) (Nat.le_add_right _ j)]
  rw [none, Nat.add_zero]

theorem isRecorded_record (cut : s.page.IsCut) : s.IsRecorded s.record where
  base := by
    have below : s.page.base + s.page.size < UInt64.size := cut.whole.2.2.2
    exact UInt64.toNat_ofNat_of_lt' (by lia)
  size := by
    have below : s.page.base + s.page.size < UInt64.size := cut.whole.2.2.2
    exact UInt64.toNat_ofNat_of_lt' (by lia)
  kind := by
    change (UInt8.ofNat s.page.kind.code).toNat = s.page.kind.code
    cases s.page.kind with
    | small k => cases k <;> rfl
    | huge k => rfl
  scanKind := by
    change (UInt8.ofNat s.page.kind.contents.code).toNat = s.page.kind.contents.code
    cases s.page.kind.contents <;> rfl
  blockSize := by
    refine UInt32.toNat_ofNat_of_lt' ?_
    rw [UInt32.size]
    lia
  blockCount := rfl
  isLive := isLive_record s
  liveCount := liveCount_record s

theorem IsRecorded.contains {r : PageRecord} (recorded : s.IsRecorded r) (cut : s.page.IsCut)
    (a : UInt64) : r.contains a = s.page.contains a.toNat := by
  have below : r.base.toNat + r.size.toNat < UInt64.size := by
    rw [recorded.base, recorded.size]
    exact cut.whole.2.2.2
  have limit : (r.base + r.size).toNat = s.page.limit := by
    rw [UInt64.toNat_add, Nat.mod_eq_of_lt below, recorded.base, recorded.size, Page.limit]
  rw [Bool.eq_iff_iff, Page.contains_iff, PageRecord.contains, Bool.and_eq_true, decide_eq_true_iff,
    decide_eq_true_iff, UInt64.le_iff_toNat_le, UInt64.lt_iff_toNat_lt, limit, recorded.base]

theorem mem_typeWords {w : UInt64} : w ∈ s.typeWords ↔ w ≠ 0 ∧ s.page.kind.contents = .typed ∧
    ∃ i, s.isAllocated i = true ∧ s.read (s.page.blockAddr i) = w := by
  unfold typeWords
  split
  · next typed =>
    simp only [List.mem_filter, List.mem_map, List.mem_range, typed, true_and, decide_eq_true_iff]
    rw [and_comm]
    refine and_congr_right fun _ => exists_congr fun i => and_congr_left fun _ => ?_
    exact and_iff_right_of_imp fun allocated => (isAllocated_iff.1 allocated).1
  · next other => simp [other]

end Slab

theorem nodup_eraseDups (ws : List UInt64) : ws.eraseDups.Nodup := by
  induction length : ws.length using Nat.strongRecOn generalizing ws with
  | ind n ih =>
    cases ws with
    | nil => exact List.nodup_nil
    | cons w ws =>
      rw [List.eraseDups_cons, List.nodup_cons]
      have shorter := List.length_filter_le (fun v => !v == w) ws
      refine ⟨?_, ih _ ?_ _ rfl⟩
      · simp [List.mem_eraseDups]
      · rw [← length, List.length_cons]
        lia

namespace Heap

variable {h : Heap} {env : Embedding}

theorem mem_typesInUse {w : UInt64} : w ∈ h.typesInUse ↔ h.arena.Names w := by
  unfold typesInUse Arena.Names
  simp only [List.mem_eraseDups, List.mem_flatMap, Array.mem_toList_iff, Slab.mem_typeWords]
  constructor
  · rintro ⟨s, hs, set, named⟩
    exact ⟨set, s, hs, named⟩
  · rintro ⟨set, s, hs, named⟩
    exact ⟨s, hs, set, named⟩

theorem mem_types {t : TypeImage} : t ∈ (h.image env).types ↔
    ∃ w layout, h.arena.Names w ∧ env.layout? w = some layout ∧
      t = ⟨w, layout.name, layout.mapOffset, layout.pointerMap.words.toList⟩ := by
  change t ∈ h.typesInUse.filterMap (fun w => (env.layout? w).map (·.image w)) ↔ _
  simp only [List.mem_filterMap, mem_typesInUse, Option.map_eq_some_iff]
  refine exists_congr fun w => ?_
  rw [← exists_and_left]
  exact exists_congr fun layout => and_congr_right fun _ => and_congr_right fun _ => eq_comm

theorem nodup_types : ((h.image env).types.map (·.identity)).Nodup := by
  change ((h.typesInUse.filterMap fun w => (env.layout? w).map (·.image w)).map _).Nodup
  refine List.pairwise_map.2 (List.pairwise_filterMap.2 ?_)
  refine (nodup_eraseDups _).imp fun {v w} other => ?_
  intro t ht u hu
  obtain ⟨layout, -, rfl⟩ := Option.map_eq_some_iff.1 ht
  obtain ⟨layout', -, rfl⟩ := Option.map_eq_some_iff.1 hu
  exact other

theorem shown_threads {t : Threads} {entries : List (ThreadId × RecordId)}
    (recorded : ∀ e ∈ entries, ∃ r, t.record? e.2 = some r ∧ r.thread = e.1) :
    List.Forall₂ (fun e image => ∃ r, t.record? e.2 = some r ∧ r.thread = e.1 ∧ r.IsShown image)
      entries ((entries.filterMap fun e => t.record? e.2).map (·.image)) := by
  induction entries with
  | nil => exact .nil
  | cons e entries ih =>
    obtain ⟨r, found, thread⟩ := recorded e List.mem_cons_self
    simp only [List.filterMap_cons, found, List.map_cons]
    exact .cons ⟨r, found, thread, rfl, rfl, rfl⟩
      (ih fun e he => recorded e (List.mem_cons_of_mem _ he))

section Pages

def row (h : Heap) : List Slab :=
  h.arena.slabs.toList.mergeSort fun s t => s.page.base ≤ t.page.base

theorem row_perm (h : Heap) : h.row.Perm h.arena.slabs.toList := List.mergeSort_perm _ _

theorem mem_row {s : Slab} : s ∈ h.row ↔ s ∈ h.arena.slabs :=
  (row_perm h).mem_iff.trans Array.mem_toList_iff

theorem ascending_row (sound : h.arena.Sound) :
    h.row.Pairwise fun s t => s.page.base < t.page.base := by
  have sorted : h.row.Pairwise fun s t => s.page.base ≤ t.page.base := by
    have pairs := @List.pairwise_mergeSort _ (fun s t : Slab => s.page.base ≤ t.page.base)
      (fun s t u => by simpa using Nat.le_trans) (fun s t => by simpa using Nat.le_total _ _)
      h.arena.slabs.toList
    exact pairs.imp fun le => by simpa using le
  have apart : h.row.Pairwise fun s t => s.page.Apart t.page :=
    ((row_perm h).pairwise_iff fun apart => apart.symm).2 (Arena.pairwise_apart_slabs sound)
  have pos : ∀ {s}, s ∈ h.row → 0 < s.page.size := fun hs =>
    (sound.slab _ (mem_row.1 hs)).cut.whole.2.2.1
  refine (sorted.and apart).imp_of_mem fun hs ht both => ?_
  exact Nat.lt_of_le_of_ne both.1 (both.2.base_ne (pos hs) (pos ht))

theorem isRecorded_of_mem_row (sound : h.arena.Sound) {s : Slab} (hs : s ∈ h.row) :
    s.IsRecorded s.record :=
  Slab.isRecorded_record (sound.slab s (mem_row.1 hs)).cut

theorem pages_image (h : Heap) (env : Embedding) :
    (h.image env).pages = h.row.map (·.record) := rfl

theorem contains_record_iff (sound : h.arena.Sound) {s : Slab} (hs : s ∈ h.row) (a : UInt64) :
    s.record.contains a = true ↔ h.arena.directory.lookup a.toNat = some s.page := by
  rw [(isRecorded_of_mem_row sound hs).contains (sound.slab s (mem_row.1 hs)).cut,
    Arena.lookup_eq_some sound]
  obtain ⟨i, found⟩ := Array.getElem?_of_mem (mem_row.1 hs)
  exact ⟨fun inside => ⟨i, s, found, rfl, inside⟩, fun ⟨_, _, _, _, inside⟩ => inside⟩

theorem pageOf?_of_lookup_none (sound : h.arena.Sound) {a : UInt64}
    (nowhere : h.arena.directory.lookup a.toNat = none) : (h.image env).pageOf? a = none := by
  rw [HeapDump.pageOf?, pages_image, List.findIdx?_eq_none_iff]
  intro r hr
  obtain ⟨s, hs, rfl⟩ := List.mem_map.1 hr
  rw [Bool.eq_false_iff, Ne, contains_record_iff sound hs, nowhere]
  exact nofun

theorem pageOf?_of_lookup_some (sound : h.arena.Sound) {a : UInt64} {p : Page}
    (installed : h.arena.directory.lookup a.toNat = some p) :
    ∃ i r s, (h.image env).pageOf? a = some i ∧ (h.image env).pages[i]? = some r ∧
      s ∈ h.arena.slabs ∧ s.page = p ∧ s.IsRecorded r := by
  obtain ⟨j, s, found, rfl, -⟩ := (Arena.lookup_eq_some sound).1 installed
  have hs : s ∈ h.row := mem_row.2 (Array.mem_of_getElem? found)
  -- A search for the address finds a record, and all records that it can find are of the page there.
  cases place : (h.image env).pageOf? a with
  | none =>
    have missed := List.findIdx?_eq_none_iff.1 place s.record (List.mem_map_of_mem hs)
    rw [(contains_record_iff sound hs a).2 installed] at missed
    cases missed
  | some i =>
    obtain ⟨bound, spans, -⟩ := List.findIdx?_eq_some_iff_getElem.1 place
    have bound' : i < h.row.length := by simpa [pages_image] using bound
    have here : (h.image env).pages[i] = h.row[i].record := by simp [pages_image]
    have ht : h.row[i] ∈ h.row := List.getElem_mem bound'
    rw [here, contains_record_iff sound ht, installed] at spans
    exact ⟨i, h.row[i].record, h.row[i], rfl, by rw [List.getElem?_eq_getElem bound, here],
      mem_row.1 ht, (Option.some.inj spans).symm, isRecorded_of_mem_row sound ht⟩

theorem isPictured_image (orderly : h.Orderly) : h.IsPictured env (h.image env) where
  pages := by
    refine ⟨h.row, row_perm h, ?_⟩
    rw [pages_image, List.forall₂_map_right_iff, List.forall₂_same]
    exact fun s hs => isRecorded_of_mem_row orderly.tallied.sound hs
  ascending := by
    have recorded := fun {s} => isRecorded_of_mem_row (s := s) orderly.tallied.sound
    rw [pages_image, List.pairwise_map]
    refine (ascending_row orderly.tallied.sound).imp_of_mem fun hs ht below => ?_
    rw [UInt64.lt_iff_toNat_lt, (recorded hs).base, (recorded ht).base]
    exact below
  roots := rfl
  threads := shown_threads orderly.enrolled.recorded
  threadsOnce := orderly.enrolled.distinct
  types _ := mem_types
  typesOnce := nodup_types
  typesAll := by
    rintro known w ⟨set, s, hs, typed, i, allocated, rfl⟩
    obtain unset | found := known s hs typed i allocated
    · exact absurd unset set
    · obtain ⟨layout, found⟩ := Option.isSome_iff_exists.1 found
      exact ⟨_, mem_types.2 ⟨_, layout, ⟨set, s, hs, typed, i, allocated, rfl⟩, found, rfl⟩, rfl⟩
  pageOf_none _ := pageOf?_of_lookup_none orderly.tallied.sound
  pageOf_some _ _ := pageOf?_of_lookup_some orderly.tallied.sound

end Pages

theorem opens_of_send {w : Written} {limit : Option Nat} {bytes : List UInt8}
    (sent : w.send limit = (bytes, .ok ())) (trailing : List UInt8) :
    w.Opens (bytes ++ trailing) trailing := by
  have whole : ∀ {outcome : Except DumpError Unit},
      (outcome = if w.complete then .ok () else .error .tooLong) →
        (w.bytes, outcome) = (bytes, .ok ()) → w.Opens (bytes ++ trailing) trailing := by
    rintro outcome rfl same
    obtain ⟨rfl, fine⟩ := Prod.mk.inj same
    split at fine
    · next complete => exact ⟨complete, rfl⟩
    · cases fine
  unfold Written.send at sent
  cases limit with
  | none => exact whole rfl sent
  | some n =>
    simp only at sent
    split at sent
    · cases (Prod.mk.inj sent).2
    · exact whole rfl sent

theorem exists_send_of_dump {caller : Option Caller} {limit : Option Nat} {h' : Heap}
    {answer : List UInt8 × Except DumpError Unit}
    (dumped : h.dump env caller limit = (.done answer, h')) :
    ((h.parkedBy caller).image env).encode.send limit = answer := by
  obtain ⟨waits, -⟩ | ⟨result, g, ran, -, same⟩ := whileParked_cases dumped
  · cases waits
  · obtain rfl := same answer rfl
    cases stopping : (h.parkedBy caller).stopWorld .forever fun h => h with
    | mk stop s =>
      simp only [stopping] at ran
      obtain ⟨rfl, -⟩ | ⟨-, p, rfl⟩ := stopWorld_cases stopping
      · cases (Prod.mk.inj ran).1
      · cases stop with
        | achieved => exact Outcome.done.inj (Prod.mk.inj ran).1
        | abandoned => cases (Prod.mk.inj ran).1
        | waits => cases (Prod.mk.inj ran).1

/-- **A dump that was sent in full is read back as a picture of the heap**, whatever bytes follow
it. -/
theorem pictured_of_dump {config : Config} (run : Reachable config h) {caller : Option Caller}
    {limit : Option Nat} {bytes : List UInt8} {h' : Heap}
    (dumped : h.dump env caller limit = (.done (bytes, .ok ()), h')) (trailing : List UInt8) :
    ∃ d, HeapDump.decode (bytes ++ trailing) = .ok (d, trailing) ∧
      (h.parkedBy caller).IsPictured env d := by
  have opens := opens_of_send (exists_send_of_dump dumped) trailing
  exact ⟨_, (Reader.reads_dump _ _ _).2 ⟨trivial, opens⟩,
    isPictured_image ((quiet_parkedBy h caller).orderly run.orderly)⟩

theorem pictured_of_dump_sample :
    Reachable (.testing 0) sample ∧ ∃ bytes h' d,
      sample.dump .sample (some sampleCaller) none = (.done (bytes, .ok ()), h') ∧
      HeapDump.decode (bytes ++ [7]) = .ok (d, [7]) ∧
      (sample.parkedBy (some sampleCaller)).IsPictured .sample d ∧ d.pages.length = 1 ∧
      d.threads.length = 1 ∧ ∃ t ∈ d.types, t.identity = 8 := by
  have sent : (sample.dump .sample (some sampleCaller) none).1.map (·.2) = .done (.ok ()) := by
    decide +kernel
  have dumped : ∃ bytes,
      (sample.dump .sample (some sampleCaller) none).1 = .done (bytes, .ok ()) := by
    cases answered : (sample.dump .sample (some sampleCaller) none).1 with
    | done answer =>
      rw [answered] at sent
      exact ⟨answer.1, congrArg _ (Prod.ext rfl (Outcome.done.inj sent))⟩
    | failed e => simp [answered, Outcome.map] at sent
    | waits => simp [answered, Outcome.map] at sent
  obtain ⟨bytes, whole⟩ := dumped
  obtain ⟨d, read, pictured⟩ := pictured_of_dump reachable_sample (Prod.ext whole rfl) [7]
  obtain ⟨row, perm, records⟩ := pictured.pages
  have pages : sample.arena.slabs.toList.length = 1 := by decide +kernel
  have threads : (sample.parkedBy (some sampleCaller)).threads.registered.length = 1 := by
    decide +kernel
  have named : (8 : UInt64) ∈ sample.typesInUse := by decide +kernel
  have known : ∃ layout, Embedding.sample.layout? 8 = some layout := ⟨_, rfl⟩
  obtain ⟨layout, found⟩ := known
  refine ⟨reachable_sample, _, _, d, Prod.ext whole rfl, read, pictured, ?_, ?_, ?_⟩
  · rw [← records.length_eq, perm.length_eq]
    exact pages
  · rw [← pictured.threads.length_eq]
    exact threads
  · exact ⟨_, (pictured.types _).2 ⟨8, layout, mem_typesInUse.1 named, found, rfl⟩, rfl⟩

end Heap

end MarkSweep
