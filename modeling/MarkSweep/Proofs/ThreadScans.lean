import MarkSweep.Mark.Climb
import MarkSweep.Proofs.RetainedBlocks

set_option autoImplicit false

namespace MarkSweep

namespace ThreadRecord

theorem pairwise_stackAddrs (r : ThreadRecord) : r.stackAddrs.Pairwise (· < ·) := by
  rw [stackAddrs, List.pairwise_map]
  refine List.pairwise_lt_range.imp fun less => Nat.add_lt_add_left ?_ _
  exact Nat.mul_lt_mul_of_pos_right less (by decide)

end ThreadRecord

namespace Marker

open Arena

def look (ctx : MarkContext) (m : Marker) (w : UInt64) : Marker :=
  if w = 0 then m else (m.markConservative ctx w.toNat).2

/-- Whether some words have been looked at: the blocks around them that had no mark have got one,
and were put on the stack in some order. -/
structure Looked (m : Marker) (words : List UInt64) (new : List Addr) (m' : Marker) : Prop where
  marked : m.arena.MarkedAt new m'.arena
  pushed : m'.pending.toList = m.pending.toList ++ new
  nodup : new.Nodup
  mem_iff : ∀ x, x ∈ new ↔ ¬ m.arena.Marks x ∧ ∃ w ∈ words, m.arena.Points w x

section Looking

variable {m m₁ : Marker} {words : List UInt64} {new : List Addr} {ctx : MarkContext}

theorem looked_nil (m : Marker) : m.Looked [] [] m :=
  ⟨markedAt_self _, (List.append_nil _).symm, List.nodup_nil, by simp⟩

/-- A word adds nothing when the block around it has its mark by now, or when there is none. -/
theorem Looked.more (looked : m.Looked words new m₁) {w : UInt64}
    (known : ∀ x, m.arena.Points w x → ¬ m.arena.Marks x → x ∈ new) :
    m.Looked (words ++ [w]) new m₁ := by
  refine ⟨looked.marked, looked.pushed, looked.nodup, fun x => ?_⟩
  constructor
  · intro mem
    obtain ⟨unmarked, v, among, points⟩ := (looked.mem_iff x).1 mem
    exact ⟨unmarked, v, List.mem_append_left _ among, points⟩
  · rintro ⟨unmarked, v, among, points⟩
    obtain before | last := List.mem_append.1 among
    · exact (looked.mem_iff x).2 ⟨unmarked, v, before, points⟩
    · obtain rfl := List.mem_singleton.1 last
      exact known x points unmarked

theorem eq_addr_of_points (sound : m.arena.Sound) {w : UInt64} {b : Block} (held : m.arena.Holds b)
    (inside : b.Contains w.toNat) {x : Addr} (points : m.arena.Points w x) : x = b.addr := by
  obtain ⟨c, held', rfl, inside'⟩ := points
  rw [eq_of_contains sound held held' inside inside']

theorem looked_look (sound : m.arena.Sound) (resolve : ctx.resolve = Arena.resolveInterior)
    (looked : m.Looked words new m₁) (w : UInt64) :
    ∃ new', m.Looked (words ++ [w]) new' (m₁.look ctx w) := by
  have same := looked.marked.1
  unfold look
  split
  · next zero =>
    exact ⟨new, looked.more fun x points => absurd points (zero ▸ not_points_zero sound x)⟩
  obtain ⟨step, nothing⟩ | ⟨b, held, inside, step⟩ :=
    markConservative_eq (sound_congr same sound) resolve w.toNat
  · rw [step]
    refine ⟨new, looked.more ?_⟩
    rintro x ⟨b, held, -, inside⟩
    exact absurd inside (nothing b ((holds_congr same b).2 held))
  have held' := (holds_congr same b).1 held
  have alone : ∀ x, m.arena.Points w x → x = b.addr := fun x =>
    eq_addr_of_points sound held' inside
  rw [step]
  obtain ⟨found, known⟩ | ⟨starts, unmarked, absent, c, found, marked⟩ :=
    markExact_cases sound looked.marked b.addr
  · rw [found]
    refine ⟨new, looked.more fun x points unmarked => ?_⟩
    obtain rfl := alone x points
    exact known (starts_iff_holds.2 ⟨b, held', rfl⟩) unmarked
  · rw [found]
    have grown : ∀ x, x ∈ b.addr :: new ↔ x ∈ new ++ [b.addr] := fun x => by
      rw [List.mem_cons, List.mem_append, List.mem_singleton, or_comm]
    refine ⟨new ++ [b.addr], marked.congr grown, ?_, ?_, fun x => ?_⟩
    · rw [MarkStack.toList_push, looked.pushed, List.append_assoc]
    · exact List.nodup_append.2 ⟨looked.nodup, List.nodup_singleton _, by
        rintro x mem y last rfl
        exact absent (List.mem_singleton.1 last ▸ mem)⟩
    · rw [List.mem_append, List.mem_singleton, looked.mem_iff]
      constructor
      · rintro (⟨unmarked', v, among, points⟩ | rfl)
        · exact ⟨unmarked', v, List.mem_append_left _ among, points⟩
        · exact ⟨unmarked, w, List.mem_append_right _ (List.mem_singleton.2 rfl),
            b, held', rfl, inside⟩
      · rintro ⟨unmarked', v, among, points⟩
        obtain before | last := List.mem_append.1 among
        · exact .inl ⟨unmarked', v, before, points⟩
        · obtain rfl := List.mem_singleton.1 last
          exact .inr (alone x points)

theorem looked_foldl (sound : m.arena.Sound) (resolve : ctx.resolve = Arena.resolveInterior)
    (looked : m.Looked words new m₁) (rest : List UInt64) :
    ∃ new', m.Looked (words ++ rest) new' (rest.foldl (look ctx) m₁) := by
  induction rest generalizing words new m₁ with
  | nil => exact ⟨new, by rwa [List.append_nil]⟩
  | cons w rest ih =>
    obtain ⟨new₁, looked₁⟩ := looked_look sound resolve looked w
    obtain ⟨new', looked'⟩ := ih looked₁
    refine ⟨new', ?_⟩
    rwa [List.append_assoc] at looked'

theorem markConservative_ok (sound : m.arena.Sound) (resolve : ctx.resolve = Arena.resolveInterior)
    (x : Addr) : ∃ won m', m.markConservative ctx x = (.ok won, m') := by
  obtain ⟨step, -⟩ | ⟨b, -, -, step⟩ := markConservative_eq sound resolve x
  · exact ⟨_, _, step⟩
  · exact ⟨_, _, step⟩

theorem markAround_eq_foldl (sound : m.arena.Sound)
    (resolve : ctx.resolve = Arena.resolveInterior) (words : List UInt64) :
    m.markAround ctx words = (.ok (), words.foldl (look ctx) m) := by
  induction words generalizing m with
  | nil => rfl
  | cons w words ih =>
    rw [markAround, List.foldl_cons, look]
    split
    · exact ih sound
    · have same := clearMarks_markConservative ctx w.toNat m
      obtain ⟨won, m₁, step⟩ := markConservative_ok sound resolve w.toNat
      rw [step] at same ⊢
      exact ih (sound_congr same sound)

theorem Looked.markBit_iff (looked : m.Looked words new m₁) (sound : m.arena.Sound) (i k : Nat) :
    m₁.arena.markBit i k = true ↔ m.arena.markBit i k = true ∨
      ∃ s, m.arena.slabs[i]? = some s ∧ s.isAllocated k = true ∧
        ∃ w ∈ words, (s.block k).Contains w.toNat := by
  rw [looked.marked.2]
  constructor
  · rintro (before | ⟨x, mem, s, found, allocated, rfl⟩)
    · exact .inl before
    · obtain ⟨-, w, among, b, held, start, inside⟩ := (looked.mem_iff _).1 mem
      have held' := holds_iff.2 ⟨i, s, k, found, allocated, rfl⟩
      obtain rfl := eq_of_addr_eq sound held held' start
      exact .inr ⟨s, found, allocated, w, among, inside⟩
  · rintro (before | ⟨s, found, allocated, w, among, inside⟩)
    · exact .inl before
    · have place : m.arena.Places (s.page.blockAddr k) i k := ⟨s, found, allocated, rfl⟩
      by_cases marked : m.arena.Marks (s.page.blockAddr k)
      · obtain ⟨j, l, place', bit⟩ := marked
        obtain ⟨rfl, rfl⟩ := places_unique sound place place'
        exact .inl bit
      · have held := holds_iff.2 ⟨i, s, k, found, allocated, rfl⟩
        exact .inr ⟨_, (looked.mem_iff _).2 ⟨marked, w, among, s.block k, held, rfl, inside⟩, place⟩

end Looking

theorem markAround_append (ctx : MarkContext) (words others : List UInt64) (m : Marker) :
    m.markAround ctx (words ++ others) =
      match m.markAround ctx words with
      | (.error e, m) => (.error e, m)
      | (.ok (), m) => m.markAround ctx others := by
  induction words generalizing m with
  | nil => rfl
  | cons w words ih =>
    rw [List.cons_append, markAround, markAround]
    split
    · exact ih m
    · cases step : m.markConservative ctx w.toNat with
      | mk result m₁ =>
        cases result with
        | error e => rfl
        | ok won => exact ih m₁

theorem climb?_eq (ctx : MarkContext) {top : UInt64} (room : top.toNat + wordBytes < UInt64.size)
    (n : Nat) {cursor : UInt64} (below : cursor ≤ top)
    (left : (top.toNat - cursor.toNat) / wordBytes = n) (m : Marker) :
    m.climb? ctx top cursor = some
      (match m.markAround ctx
          ((List.range n).map fun k => ctx.word (cursor.toNat + k * wordBytes)) with
      | (.error e, m) => (.error e, m)
      | (.ok (), m) => (.ok n, m)) := by
  have low : cursor.toNat ≤ top.toNat := UInt64.le_iff_toNat_le.1 below
  have next : (cursor + 8).toNat = cursor.toNat + wordBytes :=
    toNat_add_wordBytes (Nat.lt_of_le_of_lt (Nat.add_le_add_right low _) room)
  have fits : cursor.toNat + wordBytes < UInt64.size := by lia
  induction n generalizing cursor m with
  | zero =>
    have high : ¬ cursor + 8 ≤ top := by
      rw [UInt64.le_iff_toNat_le, next]
      unfold wordBytes at left ⊢
      lia
    rw [climb?, if_pos fits, if_neg high]
    rfl
  | succ n ih =>
    have high : cursor + 8 ≤ top := by
      rw [UInt64.le_iff_toNat_le, next]
      unfold wordBytes at left ⊢
      lia
    have high' : (cursor + 8).toNat ≤ top.toNat := UInt64.le_iff_toNat_le.1 high
    have fits' : (cursor + 8).toNat + wordBytes < UInt64.size := by lia
    have left' : (top.toNat - (cursor + 8).toNat) / wordBytes = n := by
      rw [next]
      unfold wordBytes at left ⊢
      lia
    have words : (List.range (n + 1)).map (fun k => ctx.word (cursor.toNat + k * wordBytes)) =
        [ctx.word cursor.toNat] ++
          (List.range n).map fun k => ctx.word ((cursor + 8).toNat + k * wordBytes) := by
      rw [List.range_succ_eq_map, List.map_cons, List.map_map, Nat.zero_mul, Nat.add_zero]
      refine congrArg _ (List.map_congr_left fun k _ => congrArg ctx.word ?_)
      rw [next, Nat.succ_mul]
      lia
    rw [climb?, if_pos fits, if_pos high, words, markAround_append]
    cases step : m.markAround ctx [ctx.word cursor.toNat] with
    | mk result m₁ =>
      cases result with
      | error e => rfl
      | ok _ =>
        simp only [ih high left' m₁ high' (toNat_add_wordBytes fits') fits', Option.map_some]
        generalize m₁.markAround ctx _ = rest
        obtain ⟨_ | _, m₂⟩ := rest <;> rfl

/-- A scan with a machine word for a cursor is the scan, as long as a word above the stack could be
addressed. -/
theorem scanThread?_eq (ctx : MarkContext) {r : ThreadRecord}
    (room : r.stackTop + wordBytes < UInt64.size) (m : Marker) :
    m.scanThread? ctx r = some (m.scanThread ctx r) := by
  unfold scanThread? scanThread ThreadRecord.scannedWords
  by_cases captured : r.snapshot.isCaptured = true
  · by_cases likely : r.stackIsPlausible = true
    · have above := (Bool.and_eq_true_iff.1 likely).1
      rw [decide_eq_true_iff] at above
      have top : (UInt64.ofNat r.stackTop).toNat = r.stackTop := UInt64.toNat_ofNat_of_lt' (by lia)
      have start : (UInt64.ofNat r.scanStart).toNat = r.scanStart :=
        UInt64.toNat_ofNat_of_lt' (by lia)
      have below : UInt64.ofNat r.scanStart ≤ UInt64.ofNat r.stackTop := by
        rw [UInt64.le_iff_toNat_le, top, start]
        exact Nat.le_of_lt above
      have climbed := climb?_eq ctx (by rwa [top])
        ((r.stackTop - r.scanStart) / wordBytes) below (by rw [top, start]) m
      have words : r.stackAddrs.map ctx.word =
          (List.range ((r.stackTop - r.scanStart) / wordBytes)).map
            fun k => ctx.word (r.scanStart + k * wordBytes) := by
        rw [ThreadRecord.stackAddrs, List.map_map]
        rfl
      have length : (r.stackAddrs.map ctx.word ++ r.snapshot.words).length =
          (r.stackTop - r.scanStart) / wordBytes + r.snapshot.words.length := by
        rw [List.length_append, List.length_map, ThreadRecord.stackAddrs, List.length_map,
          List.length_range]
      rw [start, ← words] at climbed
      simp only [captured, likely, climbed, length, Option.map_some, markAround_append,
        Bool.not_true, Bool.false_eq_true, if_false, if_true]
      generalize m.markAround ctx (r.stackAddrs.map ctx.word) = climb
      obtain ⟨_ | _, m₁⟩ := climb
      · rfl
      · generalize m₁.markAround ctx r.snapshot.words = rest
        obtain ⟨_ | _, m₂⟩ := rest <;> rfl
    · simp [captured, likely]
  · simp [captured, markAround]

/-- If no word above the top could be addressed, a climb by whole words gets to the last word of
memory and is lost there. -/
theorem climb?_eq_none {ctx : MarkContext} (resolve : ctx.resolve = Arena.resolveInterior)
    {top cursor : UInt64} (narrow : UInt64.size ≤ top.toNat + wordBytes)
    (aligned : wordBytes ∣ cursor.toNat) {m : Marker} (sound : m.arena.Sound) :
    m.climb? ctx top cursor = none := by
  fun_induction climb? ctx top cursor m with
  | case1 cursor m fits high e m₁ failed =>
    rw [markAround_eq_foldl sound resolve] at failed
    nomatch failed
  | case2 cursor m fits high m₁ looked ih =>
    have same := clearMarks_markAround ctx [ctx.word cursor.toNat] m
    rw [looked] at same
    rw [toNat_add_wordBytes fits] at ih
    rw [ih (Nat.dvd_add aligned (Nat.dvd_refl _)) (sound_congr same sound), Option.map_none]
  | case3 cursor m fits high =>
    rw [UInt64.le_iff_toNat_le, toNat_add_wordBytes fits] at high
    unfold wordBytes at *
    lia
  | case4 => rfl

theorem scanThread_eq_foldl {m : Marker} {ctx : MarkContext} (sound : m.arena.Sound)
    (resolve : ctx.resolve = Arena.resolveInterior) {r : ThreadRecord}
    (captured : r.snapshot.isCaptured = true) (likely : r.stackIsPlausible = true) :
    m.scanThread ctx r = (.ok ((r.stackTop - r.scanStart) / wordBytes + 28),
      (r.stackAddrs.map ctx.word ++ r.snapshot.words).foldl (look ctx) m) := by
  have length : (r.stackAddrs.map ctx.word ++ r.snapshot.words).length =
      (r.stackTop - r.scanStart) / wordBytes + 28 := by
    rw [List.length_append, Snapshot.length_words, List.length_map, ThreadRecord.stackAddrs,
      List.length_map, List.length_range]
  rw [scanThread, ThreadRecord.scannedWords, captured, likely]
  simp only [Bool.not_true, Bool.false_eq_true, if_false, if_true,
    markAround_eq_foldl sound resolve, length]

theorem ne_zero_of_points {m : Marker} (sound : m.arena.Sound) {w : UInt64} {x : Addr}
    (points : m.arena.Points w x) : w ≠ 0 := by
  rintro rfl
  exact not_points_zero sound x points

/-- With plausible bounds, the scan of a parked thread looks at each whole word of the stack once,
from the stack pointer up, and then at the saved words. Besides the marks that were there it sets
those of the allocated blocks around these words, and the blocks that get their mark are put on the
stack, each once. -/
theorem scanThread_of_captured {config : Config} {h : Heap} (heap : Heap.Reachable config h)
    {m : Marker} (marking : m.arena.clearMarks = h.arena.clearMarks) {ctx : MarkContext}
    (resolve : ctx.resolve = Arena.resolveInterior) {r : ThreadRecord}
    (captured : r.snapshot.isCaptured = true) (above : r.scanStart < r.stackTop)
    (span : r.stackTop - r.scanStart ≤ maxStackSpan)
    (room : r.stackTop + wordBytes < UInt64.size) :
    r.stackAddrs.Pairwise (· < ·) ∧
      (∀ x, x ∈ r.stackAddrs ↔
        wordBytes ∣ x ∧ r.scanStart ≤ x ∧ x + wordBytes ≤ r.stackTop) ∧
      ∃ words new m',
        words = r.stackAddrs.map ctx.word ++ r.snapshot.registers.toList ++
          r.snapshot.below.toList ∧
        m.scanThread ctx r = (.ok ((r.stackTop - r.scanStart) / wordBytes + 28), m') ∧
        m.scanThread? ctx r = some (.ok ((r.stackTop - r.scanStart) / wordBytes + 28), m') ∧
        m' = words.foldl (look ctx) m ∧
        m'.arena.clearMarks = m.arena.clearMarks ∧
        (∀ i k, m'.arena.markBit i k = true ↔ m.arena.markBit i k = true ∨
          ∃ s, m.arena.slabs[i]? = some s ∧ s.isAllocated k = true ∧
            ∃ w ∈ words, w ≠ 0 ∧ (s.block k).Contains w.toNat) ∧
        m'.pending.toList = m.pending.toList ++ new ∧ new.Nodup ∧
        ∀ x, x ∈ new ↔ ¬ m.arena.Marks x ∧
          ∃ w ∈ words, w ≠ 0 ∧ ∃ b, m.arena.Holds b ∧ b.addr = x ∧ b.Contains w.toNat := by
  have sound := sound_congr marking heap.sound
  have likely : r.stackIsPlausible = true := by
    rw [ThreadRecord.stackIsPlausible, Bool.and_eq_true, decide_eq_true_iff, decide_eq_true_iff]
    exact ⟨above, span⟩
  have scanned := scanThread_eq_foldl sound resolve captured likely
  generalize shown : r.stackAddrs.map ctx.word ++ r.snapshot.words = words at scanned
  obtain ⟨new, looked⟩ := looked_foldl sound resolve (looked_nil m) words
  rw [List.nil_append] at looked
  refine ⟨r.pairwise_stackAddrs, fun x => ThreadRecord.mem_stackAddrs, words, new, _, ?_, scanned,
    ?_, rfl, looked.marked.1, fun i k => ?_, looked.pushed, looked.nodup, fun x => ?_⟩
  · rw [← shown, Snapshot.words, List.append_assoc]
  · rw [scanThread?_eq ctx room, scanned]
  · rw [looked.markBit_iff sound]
    refine or_congr_right (exists_congr fun s => and_congr_right fun found =>
      and_congr_right fun allocated => exists_congr fun w => and_congr_right fun _ => ?_)
    refine (and_iff_right_of_imp fun inside => ?_).symm
    have held := holds_iff.2 ⟨i, s, k, found, allocated, rfl⟩
    exact ne_zero_of_points sound ⟨s.block k, held, rfl, inside⟩
  · rw [looked.mem_iff]
    refine and_congr_right fun _ => exists_congr fun w => and_congr_right fun _ => ?_
    exact (and_iff_right_of_imp (ne_zero_of_points sound)).symm

def sampleThread : ThreadRecord where
  thread := 1
  name := "main"
  stackTop := 4115
  depth := 1
  snapshot := { sp := 4099, registers := .replicate 12 69656 }

theorem scanThread_of_captured_sample :
    let m := (({ arena := Heap.sample.arena } : Marker).markExact 65536).2
    m.arena.clearMarks = Heap.sample.arena.clearMarks ∧
      sampleThread.snapshot.isCaptured = true ∧ sampleThread.scanStart < sampleThread.stackTop ∧
      ∃ m', m.scanThread Embedding.sample.toMarkContext sampleThread = (.ok 30, m') ∧
        m.scanThread? Embedding.sample.toMarkContext sampleThread = some (.ok 30, m') ∧
        m.pending.toList = [65536] ∧ m'.pending.toList = [65536, 69632] := by
  intro m
  have marking : m.arena.clearMarks = Heap.sample.arena.clearMarks := clearMarks_markExact _ _
  obtain ⟨-, -, words, new, m', -, scanned, climbed, -, -, -, pushed, -, -⟩ :=
    scanThread_of_captured Heap.reachable_sample marking
      (rfl : Embedding.sample.resolve = Arena.resolveInterior)
      (rfl : sampleThread.snapshot.isCaptured = true) (by decide) (by decide) (by decide)
  have pending : (m.scanThread Embedding.sample.toMarkContext sampleThread).2.pending.toList =
      [65536, 69632] := by
    decide +kernel
  rw [scanned] at pending
  exact ⟨marking, rfl, by decide, m', scanned, climbed, by decide +kernel, pending⟩

def highThread : ThreadRecord where
  thread := 1
  name := "main"
  stackTop := UInt64.size - 8
  depth := 1
  snapshot := { sp := UInt64.size - 16 }

/-- Having looked at the only word of this stack, the cursor has to be moved beyond the last word. -/
theorem scanThread_lost_at_last_word :
    Heap.Reachable (.testing 0) Heap.sample ∧ highThread.snapshot.isCaptured = true ∧
      highThread.scanStart < highThread.stackTop ∧
      highThread.stackTop - highThread.scanStart ≤ maxStackSpan ∧
      highThread.stackTop + wordBytes ≤ UInt64.size ∧
      ({ arena := Heap.sample.arena } : Marker).scanThread? Embedding.sample.toMarkContext
        highThread = none := by
  refine ⟨Heap.reachable_sample, rfl, by decide, by decide, by decide, ?_⟩
  have lost : ({ arena := Heap.sample.arena } : Marker).climb? Embedding.sample.toMarkContext
      (.ofNat highThread.stackTop) (.ofNat highThread.scanStart) = none :=
    climb?_eq_none rfl (by decide) (by decide) Heap.reachable_sample.sound
  have likely : highThread.stackIsPlausible = true := by decide
  rw [scanThread?, lost, likely]
  rfl

end Marker

end MarkSweep
