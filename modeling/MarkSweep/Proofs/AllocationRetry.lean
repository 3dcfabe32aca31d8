import MarkSweep.Proofs.ArenaLimit
import MarkSweep.Proofs.HeapLogs

set_option autoImplicit false

namespace MarkSweep

namespace Heap

variable {h g : Heap} {env : Embedding} {caller : Option Caller} {size : Nat} {kind : BlockKind}

theorem Step.keepsLimit {events : List Event} (step : h.Step events g) :
    h.arena.KeepsLimit g.arena := by
  cases step with
  | quiet same => exact same.arena ▸ Arena.keepsLimit_refl _
  | @write b addr w held inside => exact Arena.keepsLimit_write h.arena addr w
  | @achieve g parking =>
    have same : g.arena = h.arena := parking.arena
    exact same ▸ Arena.keepsLimit_refl _
  | @abandon g parking =>
    have same : g.arena = h.arena := parking.arena
    exact same ▸ Arena.keepsLimit_refl _
  | mark same pending => exact Arena.keepsLimit_of_clearMarks_eq same
  | @refuse host size kind e a aligned asked =>
    have kept := Arena.keepsLimit_allocate h.arena host size kind
    rw [asked] at kept
    exact kept
  | @allocate host size kind b a aligned asked =>
    have kept := Arena.keepsLimit_allocate h.arena host size kind
    rw [asked] at kept
    exact kept
  | collect nanos => exact Arena.keepsLimit_sweep h.arena

theorem Reachable.keepsLimit {config : Config} (run : Reachable config h) :
    (Arena.new config.hugeThreshold config.heapLimit).KeepsLimit h.arena := by
  obtain ⟨log, logged⟩ := run.exists_logged
  refine (logged.induction
    (P := fun h _ => (Arena.new config.hugeThreshold config.heapLimit).KeepsLimit h.arena)
    (fun h made => ?_) fun h log events h' _ kept step => kept.trans step.keepsLimit).2
  obtain ⟨-, rfl⟩ := new_cases made
  exact Arena.keepsLimit_refl _

theorem Reachable.privateBytes_le {config : Config} (run : Reachable config h)
    (limited : config.heapLimit ≠ 0) : h.arena.privateBytes ≤ config.heapLimit := by
  have kept := run.keepsLimit
  have limit : h.arena.heapLimit = config.heapLimit := kept.limit
  rw [← limit] at limited ⊢
  exact kept.within (fun _ => Nat.zero_le _) limited

theorem stopWorld_of_allParked (patience : Patience) (parked : h.threads.allParked = true) :
    h.stopWorld patience (fun h => h) =
      (.achieved, { h with safepoint := h.safepoint.request.achieve }) := by
  unfold stopWorld
  simp only [parked, if_true]

theorem exists_collectParked (patience : Patience) (parked : h.threads.allParked = true)
    {marked : MarkReport} (marking : (h.mark env).1 = .ok marked) :
    ∃ report f, h.collectParked env patience Bystanders.none = (.done (some (report, ())), f) ∧
      f.threads = h.threads ∧ f.stats.collections = h.stats.collections + 1 ∧
      f.arena = (h.mark env).2.arena.sweep.2 := by
  have stopped := stopWorld_of_allParked patience parked
  have marking' : ({ h with safepoint := h.safepoint.request.achieve }.mark env) =
      (.ok marked, { (h.mark env).2 with safepoint := h.safepoint.request.achieve }) :=
    Prod.ext marking rfl
  have meeting := fun f => show Bystanders.none.whileStopped f = ((), f) from rfl
  rw [collectParked, show Bystanders.none.whileStopping = fun h => h from rfl, stopped]
  simp only [marking', meeting]
  exact ⟨_, _, rfl, rfl, rfl, rfl⟩

theorem exists_unpark {c : Caller} (known : (h.threads.record? c.record).isSome = true)
    (parked : g.threads = (h.enter c).threads) : ∃ n, (g.unpark c.record).1 = .ok n := by
  obtain ⟨r, found⟩ := Option.isSome_iff_exists.1 known
  have deeper : g.threads.record? c.record = some (r.park c.now) := by
    rw [parked]
    change (h.threads.modify c.record (·.park c.now)).record? c.record = _
    rw [Threads.record?_modify, found, if_pos rfl]
    rfl
  have inside : (r.park c.now).depth ≠ 0 := by simp [ThreadRecord.depth_park]
  unfold unpark Threads.unpark ThreadRecord.unpark
  simp only [deeper, if_neg inside]
  exact ⟨_, rfl⟩

theorem exists_collect (known : ∀ c ∈ caller, (h.threads.record? c.record).isSome = true)
    (patience : Patience) (parked : (h.parkedBy caller).threads.allParked = true)
    {marked : MarkReport} (marking : ((h.parkedBy caller).mark env).1 = .ok marked) :
    ∃ report g, h.collect env caller patience = (.done (some report), g) ∧
      g.stats.collections = h.stats.collections + 1 ∧
      g.arena = ((h.parkedBy caller).mark env).2.arena.sweep.2 := by
  obtain ⟨report, f, done, threads, count, arena⟩ := exists_collectParked patience parked marking
  cases caller with
  | none =>
    change h.collectParked env patience Bystanders.none = _ at done
    unfold collect collectAmong whileParked
    simp only [done]
    exact ⟨report, f, rfl, count, arena⟩
  | some c =>
    change (h.enter c).collectParked env patience Bystanders.none = _ at done
    obtain ⟨n, unparked⟩ := exists_unpark (known c rfl) threads
    have left : f.unpark c.record = (.ok n, f.resumedBy (some c)) := Prod.ext unparked rfl
    unfold collect collectAmong whileParked
    simp only [done, left]
    exact ⟨report, _, rfl, count, arena⟩

/-- A collection without a deadline that is done has freed what it did not mark. -/
theorem collections_of_done {report : Option CollectionReport}
    (done : h.collect env caller .forever = (.done report, g)) :
    g.stats.collections = h.stats.collections + 1 := by
  obtain ⟨result, among, same⟩ := collect_cases done
  obtain ⟨rfl, -⟩ | ⟨result', f, ran, rfl, back⟩ := whileParked_cases among
  · simp [Outcome.map] at same
  · obtain ⟨answer, rfl⟩ : ∃ answer, result = .done answer := by
      cases result with
      | done answer => exact ⟨answer, rfl⟩
      | failed e => simp [Outcome.map] at same
      | waits => simp [Outcome.map] at same
    obtain rfl := back answer rfl
    rw [(quiet_resumedBy f caller).stats, ← (quiet_parkedBy h caller).stats]
    cases parked : (h.parkedBy caller).threads.allParked with
    | false =>
      unfold collectParked stopWorld at ran
      simp [show Bystanders.none.whileStopping = fun h => h from rfl, parked] at ran
    | true =>
      cases marking : ((h.parkedBy caller).mark env).1 with
      | ok marked =>
        obtain ⟨report', f', ran', -, count, -⟩ := exists_collectParked .forever parked marking
        obtain ⟨-, rfl⟩ := Prod.mk.inj (ran.symm.trans ran')
        exact count
      | error e =>
        have marking' : ({ h.parkedBy caller with
            safepoint := (h.parkedBy caller).safepoint.request.achieve }.mark env).1 = .error e :=
          marking
        unfold collectParked at ran
        rw [show Bystanders.none.whileStopping = fun h => h from rfl,
          stopWorld_of_allParked .forever parked] at ran
        simp only at ran
        split at ran
        · simp at ran
        · next failing =>
          rw [failing] at marking'
          contradiction

def ServesAtOnce (h : Heap) (env : Embedding) (caller : Option Caller) (size : Nat)
    (kind : BlockKind) : Prop :=
  ∃ b h', h.allocate env caller size kind = (.done b, h') ∧
    h'.stats.collections = h.stats.collections

/-- Whether a request comes to what it comes to after a single collection that has left `g`: it is
served if it fits what is left, and else it is refused with the size of its page. -/
structure Retries (h : Heap) (env : Embedding) (caller : Option Caller) (size : Nat)
    (kind : BlockKind) (g : Heap) : Prop where
  once : (h.allocate env caller size kind).2.stats.collections = h.stats.collections + 1
  served : env.hostAgain.Grants g.arena (h.arena.pageBytes size) →
    ((∃ b, (h.allocate env caller size kind).1 = .done b) ↔ g.arena.Fits size kind)
  refused : ¬ g.arena.Fits size kind →
    h.allocate env caller size kind = (.failed (.outOfMemory (h.arena.pageBytes size)), g)

theorem maybeCollect_of_not_due (idle : (h.maybeCollect env caller).1 = .done false) :
    h.maybeCollect env caller = (.done false, h) := by
  cases checked : h.maybeCollect env caller with
  | mk result g =>
    rw [checked] at idle
    obtain ⟨rfl, rfl⟩ | ⟨collected, -, rfl⟩ := maybeCollect_cases checked
    · rfl
    · cases collected <;> simp [Outcome.map] at idle

theorem allocateNow_of_not_fits (tallied : h.arena.Tallied) (host : Host) (positive : 0 < size)
    (bounded : size ≤ maxRequest) (full : ¬ h.arena.Fits size kind) :
    h.allocateNow host size kind = (.error (.outOfMemory (h.arena.pageBytes size)), h) := by
  unfold allocateNow
  rw [Arena.allocate_of_not_fits tallied positive bounded full]

theorem exists_allocateNow_of_fits (tallied : h.arena.Tallied) {host : Host}
    (aligned : host.IsAligned) (positive : 0 < size) (bounded : size ≤ maxRequest)
    (grants : host.Grants h.arena (h.arena.pageBytes size)) (fits : h.arena.Fits size kind) :
    ∃ b h', h.allocateNow host size kind = (.ok b, h') := by
  obtain ⟨b, a, served⟩ :=
    Arena.exists_allocate_of_fits tallied aligned positive bounded grants fits
  unfold allocateNow
  rw [served]
  exact ⟨b, _, rfl⟩

theorem collections_allocateNow (host : Host) (size : Nat) (kind : BlockKind) (h : Heap) :
    (h.allocateNow host size kind).2.stats.collections = h.stats.collections := by
  unfold allocateNow
  split <;> rfl

theorem allocate_of_not_fits (tallied : h.arena.Tallied) (positive : 0 < size)
    (bounded : size ≤ maxRequest) (idle : (h.maybeCollect env caller).1 = .done false)
    (full : ¬ h.arena.Fits size kind) :
    h.allocate env caller size kind =
      match h.collect env caller .forever with
      | (.waits, g) => (.waits, g)
      | (.failed e, g) => (.failed e, g)
      | (.done _, g) =>
        (.ofExcept (g.allocateNow env.hostAgain size kind).1,
          (g.allocateNow env.hostAgain size kind).2) := by
  unfold allocate
  rw [maybeCollect_of_not_due idle]
  simp only [allocateNow_of_not_fits tallied env.host positive bounded full]
  rfl

theorem servesAtOnce_iff (tallied : h.arena.Tallied) (aligned : env.host.IsAligned)
    (positive : 0 < size) (bounded : size ≤ maxRequest)
    (idle : (h.maybeCollect env caller).1 = .done false)
    (grants : env.host.Grants h.arena (h.arena.pageBytes size)) :
    h.ServesAtOnce env caller size kind ↔ h.arena.Fits size kind := by
  constructor
  · rintro ⟨b, h', served, count⟩
    by_contra full
    rw [allocate_of_not_fits tallied positive bounded idle full] at served
    split at served
    · simp at served
    · simp at served
    · next report g collecting =>
      have more := collections_of_done collecting
      obtain ⟨-, rfl⟩ := Prod.mk.inj served
      rw [collections_allocateNow, more] at count
      simp at count
  · intro fits
    obtain ⟨b, h', served⟩ :=
      exists_allocateNow_of_fits tallied aligned positive bounded grants fits
    have count := collections_allocateNow env.host size kind h
    refine ⟨b, h', ?_, by rw [served] at count; exact count⟩
    unfold allocate
    rw [maybeCollect_of_not_due idle]
    simp only [served]

theorem retries_of_not_fits (tallied : h.arena.Tallied) (tallied' : g.arena.Tallied)
    (aligned : env.hostAgain.IsAligned) (positive : 0 < size) (bounded : size ≤ maxRequest)
    (idle : (h.maybeCollect env caller).1 = .done false) (full : ¬ h.arena.Fits size kind)
    {report : Option CollectionReport}
    (collecting : h.collect env caller .forever = (.done report, g))
    (threshold : g.arena.hugeThreshold = h.arena.hugeThreshold) :
    h.Retries env caller size kind g := by
  have retried := allocate_of_not_fits tallied positive bounded idle full
  have pages : g.arena.pageBytes size = h.arena.pageBytes size := by
    rw [Arena.pageBytes, threshold]
    rfl
  simp only [collecting] at retried
  have refused : ¬ g.arena.Fits size kind → h.allocate env caller size kind =
      (.failed (.outOfMemory (h.arena.pageBytes size)), g) := by
    intro still
    rw [retried, allocateNow_of_not_fits tallied' env.hostAgain positive bounded still, pages]
    rfl
  refine ⟨?_, fun grants => ⟨?_, fun fits => ?_⟩, refused⟩
  · rw [retried, collections_allocateNow]
    exact collections_of_done collecting
  · rintro ⟨b, served⟩
    by_contra still
    simp [refused still] at served
  · obtain ⟨b, h', served⟩ := exists_allocateNow_of_fits tallied' aligned positive bounded
      (pages.symm ▸ grants) fits
    exact ⟨b, by rw [retried, served]; rfl⟩

/-- The pages of a heap keep to its limit. If no collection is due, a request is served without one
exactly if it fits. If it does not fit, and the heap can be collected, there is one collection, and
the request comes to what it comes to after it. -/
theorem allocates_near_limit {config : Config} (run : Reachable config h) :
    h.arena.heapLimit = config.heapLimit ∧
    (config.heapLimit ≠ 0 → h.arena.privateBytes ≤ config.heapLimit) ∧
    ∀ (env : Embedding) (caller : Option Caller) (size : Nat) (kind : BlockKind),
      h.Admits (.allocate env caller size kind) → 0 < size → size ≤ maxRequest →
      (h.maybeCollect env caller).1 = .done false →
      (env.host.Grants h.arena (h.arena.pageBytes size) →
        (h.ServesAtOnce env caller size kind ↔ h.arena.Fits size kind)) ∧
      (¬ h.arena.Fits size kind → (h.parkedBy caller).threads.allParked = true →
        ∀ marked, ((h.parkedBy caller).mark env).1 = .ok marked →
          ∃ report g, h.collect env caller .forever = (.done (some report), g) ∧
            h.Retries env caller size kind g) := by
  refine ⟨run.keepsLimit.limit, run.privateBytes_le, fun env caller size kind admitted positive
    bounded idle => ?_⟩
  have tallied := run.orderly.tallied
  obtain ⟨trusted, known⟩ := admitted
  refine ⟨servesAtOnce_iff tallied trusted.1.1 positive bounded idle, ?_⟩
  intro full parked marked marking
  obtain ⟨report, g, collecting, -, arena⟩ :=
    exists_collect (fun c hc => (known c hc).1) .forever parked marking
  have after : Reachable config g := by
    have run' := run.perform (.collect env caller .forever) ⟨trusted, known⟩
    have left : (h.perform (.collect env caller .forever)).2 = g := congrArg Prod.snd collecting
    exact left ▸ run'
  have threshold : g.arena.hugeThreshold = h.arena.hugeThreshold := by
    have same := clearMarks_mark (h := h.parkedBy caller) trusted (Prod.ext marking rfl)
    rw [arena, ← (quiet_parkedBy h caller).arena]
    exact congrArg (·.hugeThreshold) same
  exact ⟨report, g, collecting, retries_of_not_fits tallied after.orderly.tallied trusted.2.1.1
    positive bounded idle full collecting threshold⟩

end Heap

def Host.pair : Host where
  region a size _ := [granule, 2 * granule].find? fun base =>
    size == granule && a.slabs.all fun s => base + size ≤ s.page.base || s.page.limit ≤ base
  table _ _ := true

theorem Host.isSound_pair : Host.pair.IsSound := by
  refine ⟨fun a size attempt base offer => ?_, fun a size attempt base offer s hs => ?_⟩
  · have fits := List.find?_some offer
    have given := List.mem_of_find?_eq_some offer
    simp only [Bool.and_eq_true, beq_iff_eq] at fits
    obtain ⟨rfl, -⟩ := fits
    simp only [List.mem_cons, List.not_mem_nil, or_false] at given
    obtain rfl | rfl := given <;> decide
  · have fits := List.find?_some offer
    simp only [Bool.and_eq_true, Array.all_eq_true_iff_forall_mem, Bool.or_eq_true,
      decide_eq_true_eq] at fits
    exact fits.2 s hs

def Embedding.pair : Embedding := { Embedding.sample with host := .pair, hostAgain := .pair }

theorem Embedding.isSound_pair : Embedding.pair.IsSound :=
  ⟨Host.isSound_pair, Host.isSound_pair, rfl, fun _ => .alone⟩

namespace Heap

def narrow : Config := { Config.testing 0 with heapLimit := 65536, hugeThreshold := 32768 }

def crowded : Heap :=
  performAll [.allocate .pair none 32768 .raw, .allocate .pair none 32768 .raw]
    { config := narrow, flags := narrow.flags, arena := Arena.new 32768 65536 }

theorem admits_crowded (size : Nat) : crowded.Admits (.allocate .pair none size .raw) :=
  ⟨Embedding.isSound_pair, by simp⟩

theorem reachable_crowded : Reachable narrow crowded :=
  Reachable.performAll (.new rfl)
    ⟨⟨Embedding.isSound_pair, by simp⟩, ⟨Embedding.isSound_pair, by simp⟩, trivial⟩

/-- The page is full and there may be no other, but nothing refers to its blocks: a third request is
served after a collection, and one for two pages is refused after a collection too. -/
theorem allocates_near_limit_crowded :
    Reachable narrow crowded ∧ crowded.arena.privateBytes = 65536 ∧
      ¬ crowded.ServesAtOnce .pair none 32768 .raw ∧
      (∃ b, (crowded.allocate .pair none 32768 .raw).1 = .done b) ∧
      (crowded.allocate .pair none 32768 .raw).2.stats.collections = 1 ∧
      (crowded.allocate .pair none 65537 .raw).1 = .failed (.outOfMemory 131072) := by
  obtain ⟨-, -, near⟩ := allocates_near_limit reachable_crowded
  have idle : (crowded.maybeCollect .pair none).1 = .done false := by decide +kernel
  have parked : (crowded.parkedBy none).threads.allParked = true := by decide +kernel
  have marking : ((crowded.parkedBy none).mark .pair).1 = .ok ⟨0, 0, 0, 0⟩ := by decide +kernel
  obtain ⟨small, retried⟩ := near .pair none 32768 .raw (admits_crowded _) (by decide) (by decide)
    idle
  obtain ⟨-, retried'⟩ := near .pair none 65537 .raw (admits_crowded _) (by decide) (by decide)
    idle
  have full : ¬ crowded.arena.Fits 32768 .raw := by decide +kernel
  obtain ⟨report, g, collecting, retries⟩ := retried full parked _ marking
  obtain ⟨report', g', collecting', retries'⟩ := retried' (by decide +kernel) parked _ marking
  obtain rfl : (crowded.collect .pair none .forever).2 = g := congrArg Prod.snd collecting
  obtain rfl : (crowded.collect .pair none .forever).2 = g' := congrArg Prod.snd collecting'
  have page : crowded.arena.pageBytes 32768 = 65536 := by decide +kernel
  have one : ∀ k, k * granule < crowded.arena.pageBytes 32768 → k = 0 := fun k below => by
    rw [page, granule] at below
    omega
  -- The page that is there and the one that the host would give share no slot.
  have granted : Host.pair.Grants crowded.arena (crowded.arena.pageBytes 32768) := by
    refine ⟨131072, by decide +kernel, fun k below => ?_⟩
    obtain rfl := one k below
    exact ⟨by unfold Directory.Aliases; decide +kernel, .inr rfl⟩
  have granted' : Host.pair.Grants (crowded.collect .pair none .forever).2.arena
      (crowded.arena.pageBytes 32768) := by
    refine ⟨65536, by decide +kernel, fun k below => ?_⟩
    obtain rfl := one k below
    exact ⟨by unfold Directory.Aliases; decide +kernel, .inr rfl⟩
  refine ⟨reachable_crowded, by decide +kernel, fun served => full ((small granted).1 served),
    (retries.served granted').2 (by decide +kernel), ?_, ?_⟩
  · rw [retries.once]
    decide +kernel
  · rw [retries'.refused (by decide +kernel)]
    decide +kernel

end Heap

end MarkSweep
