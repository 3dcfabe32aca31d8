import MarkSweep.Proofs.AllocationErrors
import MarkSweep.Proofs.CollectionExactness
import MarkSweep.Proofs.FailedCollections
import MarkSweep.Proofs.PoolHealth
import MarkSweep.Proofs.ThreadScans

set_option autoImplicit false

namespace MarkSweep

/-- Whether a thread has parked with a stack that cannot be right: empty, upside down, too long. -/
def ThreadRecord.HasStrayStack (r : ThreadRecord) : Prop :=
  r.snapshot.isCaptured = true ∧
    (r.stackTop ≤ r.scanStart ∨ maxStackSpan < r.stackTop - r.scanStart)

instance (r : ThreadRecord) : Decidable r.HasStrayStack :=
  inferInstanceAs (Decidable (_ ∧ (_ ∨ _)))

def ThreadRecord.strayStack (r : ThreadRecord) : Error :=
  .corruption (.stackBounds r.name r.scanStart r.stackTop)

theorem ThreadRecord.scannedWords_cases (around : Surroundings) (r : ThreadRecord) :
    (∃ words, r.scannedWords around = .ok words ∧ ¬ r.HasStrayStack) ∨
      r.HasStrayStack ∧ r.scannedWords around = .error r.strayStack := by
  unfold scannedWords HasStrayStack strayStack
  split
  · next missing =>
    refine .inl ⟨_, rfl, fun stray => ?_⟩
    simp [stray.1] at missing
  · next taken =>
    have captured : r.snapshot.isCaptured = true := by simpa using taken
    split
    · next likely =>
      rw [stackIsPlausible, Bool.and_eq_true, decide_eq_true_iff, decide_eq_true_iff] at likely
      refine .inl ⟨_, rfl, fun stray => ?_⟩
      obtain inverted | long := stray.2
      · exact Nat.not_lt.2 inverted likely.1
      · exact Nat.not_lt.2 likely.2 long
    · next unlikely =>
      refine .inr ⟨⟨captured, ?_⟩, rfl⟩
      rw [stackIsPlausible, Bool.and_eq_true, decide_eq_true_iff, decide_eq_true_iff, not_and_or,
        Nat.not_lt, Nat.not_le] at unlikely
      exact unlikely

namespace Marker

open Arena

section Scanning

variable {m : Marker} {ctx : MarkContext}

theorem scanThreads_cases (sound : m.arena.Sound) (resolve : ctx.resolve = Arena.resolveInterior)
    (threads : List ThreadRecord) :
    (∃ n m', m.scanThreads ctx threads = (.ok n, m') ∧ ∀ r ∈ threads, ¬ r.HasStrayStack) ∨
      ∃ r m', r ∈ threads ∧ r.HasStrayStack ∧
        m.scanThreads ctx threads = (.error r.strayStack, m') := by
  induction threads generalizing m with
  | nil => exact .inl ⟨0, m, rfl, by simp⟩
  | cons r rest ih =>
    have same := clearMarks_scanThread ctx r m
    obtain ⟨words, scanned, straight⟩ | ⟨stray, refused⟩ :=
      r.scannedWords_cases ctx.toSurroundings
    · have first : m.scanThread ctx r = (.ok words.length, words.foldl (look ctx) m) := by
        simp only [scanThread, scanned, markAround_eq_foldl sound resolve]
      rw [first] at same
      obtain ⟨n, m', others, all⟩ | ⟨t, m', member, stray, others⟩ :=
        ih (m := words.foldl (look ctx) m) (sound_congr same sound)
      · refine .inl ⟨words.length + n, m', ?_, List.forall_mem_cons.2 ⟨straight, all⟩⟩
        simp only [scanThreads, first, others]
      · refine .inr ⟨t, m', List.mem_cons_of_mem r member, stray, ?_⟩
        simp only [scanThreads, first, others]
    · have first : m.scanThread ctx r = (.error r.strayStack, m) := by
        simp only [scanThread, refused]
      refine .inr ⟨r, m, List.mem_cons_self, stray, ?_⟩
      simp only [scanThreads, first]

theorem markPhaseBy_cases {a : Arena} (sound : a.Sound) (clear : ∀ x, ¬ a.Marks x)
    (resolve : ctx.resolve = Arena.resolveInterior)
    {drain : Marker → Except Error Nat × Marker}
    (undisturbed : ∀ m : Marker, m.Seeded → m.EmptiedUndisturbed ctx (drain m))
    (roots : List UInt64) (threads : List ThreadRecord) (arena : m.arena = a) :
    (∃ report m', m.markPhaseBy drain ctx roots threads = (.ok report, m') ∧
        ∀ r ∈ threads, ¬ r.HasStrayStack) ∨
      ∃ r m', r ∈ threads ∧ r.HasStrayStack ∧
        m.markPhaseBy drain ctx roots threads = (.error r.strayStack, m') := by
  have nothing : Finds a (fun _ => False) { m with pending := {} } :=
    ⟨arena ▸ markedAt_self _, List.nodup_nil, by simp⟩
  have rooted := finds_markEach sound clear nothing roots
  have sound' := sound_congr rooted.marked.1 sound
  unfold markPhaseBy
  obtain ⟨n, m₁, scanning, all⟩ | ⟨r, m₁, member, stray, scanning⟩ :=
    scanThreads_cases sound' resolve threads
  · obtain ⟨finds, -⟩ := finds_scanThreads sound clear rooted resolve scanning
    have seeded : m₁.Seeded := finds.seeded sound fun x source => by
      obtain (none_there | ⟨-, -, -, starts⟩) | shown := source
      · exact none_there.elim
      · exact starts
      · exact shown.starts
    obtain ⟨marked, returned⟩ := ok_of_emptiedUndisturbed seeded (undisturbed m₁ seeded)
    obtain ⟨m', drained⟩ : ∃ m', drain m₁ = (.ok marked, m') := ⟨_, Prod.ext returned rfl⟩
    refine .inl ⟨{ roots := roots.length, threads := threads.length, stackWords := n, marked },
      m', ?_, all⟩
    rw [scanning]
    simp only [drained]
  · refine .inr ⟨r, m₁, member, stray, ?_⟩
    rw [scanning]

end Scanning

end Marker

namespace Heap

/-- Whether no other inconsistency that is tested for is ever found in an arena, whichever of its
blocks have a mark. -/
structure NeverAmiss (ctx : MarkContext) (a : Arena) : Prop where
  interior : ∀ m : Marker, m.arena.clearMarks = a.clearMarks →
    ∀ x, ∃ won m', m.markConservative ctx x = (.ok won, m')
  scanned : ∀ m : Marker, m.arena.clearMarks = a.clearMarks →
    ∀ x, m.arena.Marks x → ∃ m', m.scan ctx x = (.ok (), m')
  /-- So do all that a drain takes from a stack of marked blocks, however far it goes. -/
  drained : ∀ m : Marker, m.arena.clearMarks = a.clearMarks → m.pending.toList.Nodup →
    (∀ x ∈ m.pending.toList, m.arena.Marks x) →
    ∀ budget, ∃ n m', m.drain ctx budget = (.ok n, m')
  served : ∀ host size kind e b, a.allocate host size kind = (.error e, b) →
    ∀ what, e ≠ .corruption what

theorem neverAmiss {ctx : MarkContext} (resolve : ctx.resolve = Arena.resolveInterior) {a : Arena}
    (sound : a.Sound) : NeverAmiss ctx a where
  interior m same := Marker.markConservative_ok (Arena.sound_congr same sound) resolve
  scanned m same x marked := by
    obtain ⟨i, k, place, -⟩ := marked
    obtain ⟨words, found⟩ :=
      Arena.exists_references ctx.toSurroundings (Arena.sound_congr same sound) ⟨i, k, place⟩
    exact ⟨m.markEach words, by simp only [Marker.scan, found]⟩
  drained m same distinct marked budget := by
    have seeded : m.Seeded :=
      { sound := Arena.sound_congr same sound
        nodup := (List.reverse_perm _).nodup_iff.1 distinct
        marked := fun x mem => marked x (List.mem_reverse.2 mem) }
    have start : m.arena.Tracing ctx.toSurroundings m.pending.entries m.arena []
        m.pending.entries [] :=
      Arena.tracing_start seeded.sound seeded.nodup seeded.marked
    obtain ⟨n, m', run, -⟩ := Marker.drain_ok seeded.sound seeded.marked budget start
    exact ⟨n, m', run⟩
  served host size kind e b refused what := by
    rintro rfl
    obtain invalid | exhausted := Arena.invalid_or_isExhaustion_of_allocate refused
    · cases invalid
    · exact Bool.false_ne_true exhausted

theorem mark_result {h g : Heap} (sound : h.arena.Sound)
    (stopped : g.arena.clearMarks = h.arena.clearMarks) {env : Embedding}
    (resolve : env.resolve = Arena.resolveInterior)
    (undisturbed : ∀ m : Marker, m.Seeded →
      m.EmptiedUndisturbed env.toMarkContext (env.drain m)) :
    (∃ report, (g.mark env).1 = .ok report ∧ ∀ r ∈ g.threads.active, ¬ r.HasStrayStack) ∨
      ∃ r ∈ g.threads.active, r.HasStrayStack ∧ (g.mark env).1 = .error r.strayStack := by
  have same : g.arena.clearMarks.clearMarks = h.arena.clearMarks := by
    rw [Arena.clearMarks_clearMarks, stopped]
  have phase := Marker.markPhaseBy_cases (Arena.sound_congr same sound)
    (Arena.not_marks_clearMarks g.arena) resolve undisturbed (g.rootValues env.toSurroundings)
    g.threads.active (rfl : (Marker.mk g.arena.clearMarks g.pending).arena = _)
  unfold mark
  obtain ⟨report, m', marked, straight⟩ | ⟨r, m', member, stray, failed⟩ := phase
  · exact .inl ⟨report, by simp only [marked], straight⟩
  · exact .inr ⟨r, member, stray, by simp only [failed]⟩

/-- **Marking fails on stray stacks and on nothing else**, in a heap that can be, whatever its roots
and threads are by the time the world has stopped. No other inconsistency is ever found there, nor
does an undisturbed pool come upon any. -/
theorem mark_fails_iff_hasStrayStack {config : Config} {h g : Heap}
    (heap : Reachable config h) (stopped : g.arena.clearMarks = h.arena.clearMarks)
    {env : Embedding} (resolve : env.resolve = Arena.resolveInterior)
    (undisturbed : ∀ m : Marker, m.Seeded →
      m.EmptiedUndisturbed env.toMarkContext (env.drain m)) :
    ((∃ e, (g.mark env).1 = .error e) ↔ ∃ r ∈ g.threads.active, r.HasStrayStack) ∧
      (∀ e, (g.mark env).1 = .error e →
        ∃ r ∈ g.threads.active, r.HasStrayStack ∧ e = r.strayStack) ∧
      NeverAmiss env.toMarkContext h.arena ∧
      ∀ (workers interval minDispatch : Nat) (p : Pool), workers ≤ maxMarkThreads →
        Pool.Undisturbed workers interval minDispatch p →
        p.lost? = none ∧ p.faults = [] ∧
          ∀ result, p.leader = .resting (some result) → ∃ n, result = .ok n := by
  refine ⟨?_, ?_, neverAmiss resolve heap.sound, fun _ _ _ p few run => run.faultless few⟩
  · obtain ⟨report, marked, straight⟩ | ⟨r, member, stray, failed⟩ :=
      mark_result heap.sound stopped resolve undisturbed
    · constructor
      · rintro ⟨e, failed⟩
        cases marked.symm.trans failed
      · rintro ⟨r, member, stray⟩
        exact absurd stray (straight r member)
    · exact ⟨fun _ => ⟨r, member, stray⟩, fun _ => ⟨_, failed⟩⟩
  · intro e named
    obtain ⟨report, marked, -⟩ | ⟨r, member, stray, failed⟩ :=
      mark_result heap.sound stopped resolve undisturbed
    · cases marked.symm.trans named
    · exact ⟨r, member, stray, Except.error.inj (named.symm.trans failed)⟩

theorem mark_fails_iff_hasStrayStack_sample :
    let stop := (sample.parkedBy (some strayCaller)).stopWorld .forever id
    stop.1 = .achieved ∧ Reachable (.testing 0) sample ∧
      stop.2.arena.clearMarks = sample.arena.clearMarks ∧
      (stop.2.mark .sample).1 = .error (.corruption (.stackBounds "main" 8192 4112)) := by
  intro stop
  have achieved : stop.1 = .achieved := by decide +kernel
  have stopped : stop.2.arena.clearMarks = sample.arena.clearMarks := by
    have ran : (sample.parkedBy (some strayCaller)).stopWorld .forever id = (stop.1, stop.2) := rfl
    obtain ⟨waits, -⟩ | ⟨-, p, same⟩ := stopWorld_cases ran
    · exact absurd (achieved.symm.trans waits) (by decide)
    · rw [same]
      exact congrArg Arena.clearMarks (arena_parkedBy sample (some strayCaller))
  have strays : ∃ r ∈ stop.2.threads.active, r.HasStrayStack := by decide +kernel
  have alone : ∀ r ∈ stop.2.threads.active,
      r.strayStack = .corruption (.stackBounds "main" 8192 4112) := by
    decide +kernel
  obtain ⟨fails, named, -⟩ := mark_fails_iff_hasStrayStack reachable_sample stopped
    (rfl : Embedding.sample.resolve = Arena.resolveInterior) fun _ _ => .alone
  obtain ⟨e, failed⟩ := fails.2 strays
  obtain ⟨r, member, -, rfl⟩ := named e failed
  exact ⟨achieved, reachable_sample, stopped, alone r member ▸ failed⟩

end Heap

end MarkSweep
