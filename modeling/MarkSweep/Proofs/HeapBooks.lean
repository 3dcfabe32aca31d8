import MarkSweep.Proofs.HeapLogs
import MarkSweep.Proofs.SweepExactness

set_option autoImplicit false

namespace MarkSweep

namespace Arena

section Counts

variable {a b : Arena}

theorem counts_of_refused (tallied : a.Tallied) {host : Host} (aligned : host.IsAligned)
    {size : Nat} {kind : BlockKind} {e : Error}
    (asked : a.allocate host size kind = (.error e, b)) :
    b.liveBlocks = a.liveBlocks ∧ b.liveBytes = a.liveBytes := by
  have tallied' := tallied_allocate tallied aligned asked
  obtain ⟨-, ⟨-, kept⟩ | ⟨block, blockSize, granted, -⟩⟩ :=
    allocate_spec tallied.sound aligned asked
  · have same := blocks_perm tallied.sound tallied'.sound List.nodup_nil (by simp) fun c => by
      rw [kept.holds_iff, or_iff_left List.not_mem_nil]
    simpa using counts_of_perm tallied.filed tallied'.filed same
  · cases granted

theorem counts_of_granted (tallied : a.Tallied) {host : Host} (aligned : host.IsAligned)
    {size : Nat} {kind : BlockKind} {block : Block}
    (asked : a.allocate host size kind = (.ok block, b)) :
    b.liveBlocks = a.liveBlocks + 1 ∧ b.liveBytes = a.liveBytes + block.size := by
  have tallied' := tallied_allocate tallied aligned asked
  obtain ⟨-, ⟨⟨e, refused⟩, -⟩ | ⟨block', blockSize, granted, -, takes⟩⟩ :=
    allocate_spec tallied.sound aligned asked
  · cases refused
  · obtain rfl := Except.ok.inj granted
    have same := blocks_perm tallied.sound tallied'.sound (List.nodup_singleton block)
      (by simpa using takes.not_holds) fun c => by rw [takes.holds_iff, List.mem_singleton]
    have counts := counts_of_perm tallied.filed tallied'.filed same
    rw [List.length_singleton, total_cons, total_nil] at counts
    lia

theorem pages_allocate (tallied : a.Tallied) {host : Host} (aligned : host.IsAligned) {size : Nat}
    {kind : BlockKind} {result : Except Error Block}
    (asked : a.allocate host size kind = (result, b)) :
    b.slabs.size + a.mapped = a.slabs.size + b.mapped := by
  obtain done | ⟨-, rfl⟩ := allocate_cases_of_tallied tallied aligned asked
  · cases done <;> simp [reuse, take, mapPage, relist] <;> lia
  · rfl

theorem counts_write (a : Arena) (x : Addr) (w : UInt64) :
    (a.write x w).liveBlocks = a.liveBlocks ∧ (a.write x w).liveBytes = a.liveBytes ∧
      (a.write x w).slabs.size = a.slabs.size ∧ (a.write x w).mapped = a.mapped := by
  unfold write
  split
  · exact ⟨rfl, rfl, Array.size_modify, rfl⟩
  · exact ⟨rfl, rfl, rfl, rfl⟩

theorem counts_congr (same : b.clearMarks = a.clearMarks) :
    b.liveBlocks = a.liveBlocks ∧ b.liveBytes = a.liveBytes ∧ b.slabs.size = a.slabs.size ∧
      b.mapped = a.mapped := by
  have sizes := congrArg (fun c : Arena => c.slabs.size) same
  simp only [clearMarks, Array.size_map] at sizes
  exact ⟨congrArg (·.liveBlocks) same, congrArg (·.liveBytes) same, sizes, congrArg (·.mapped) same⟩

end Counts

end Arena

namespace Event

def lastKept (f : SweepReport → Nat) (log : List Event) : Nat := ((reports log).head?.map f).getD 0

end Event

open Event in
structure Stats.Count (s : Stats) (log : List Event) : Prop where
  blocksAllocated : s.blocksAllocated = .ofNat (blocks log).length
  bytesAllocated : s.bytesAllocated = .ofNat (total (·.size) (blocks log))
  blocksSinceMark : s.blocksSinceMark = .ofNat (recent log).length
  bytesSinceMark : s.bytesSinceMark = .ofNat (total (·.size) (recent log))
  bytesAtLastMark : s.bytesAtLastMark = .ofNat (total (·.size) (past log))
  collections : s.collections = .ofNat (reports log).length
  liveBlocks : s.liveBlocks = .ofNat (lastKept (·.liveBlocks) log)
  liveBytes : s.liveBytes = .ofNat (lastKept (·.liveBytes) log)
  blocksFreed : s.blocksFreed = .ofNat (total (·.freedBlocks) (reports log))
  bytesFreed : s.bytesFreed = .ofNat (total (·.freedBytes) (reports log))
  pagesReleased : s.pagesReleased = .ofNat (total (·.pagesReleased) (reports log))

namespace Stats

variable {s : Stats} {log : List Event}

theorem count_nil : ({} : Stats).Count [] :=
  ⟨rfl, rfl, rfl, rfl, rfl, rfl, rfl, rfl, rfl, rfl, rfl⟩

theorem count_recordAllocation (counts : s.Count log) (b : Block) :
    (s.recordAllocation b.size).Count (.allocated b :: log) where
  blocksAllocated := by
    change s.blocksAllocated + 1 = .ofNat ((Event.blocks log).length + 1)
    rw [counts.blocksAllocated, UInt64.ofNat_add]
    rfl
  bytesAllocated := by
    change s.bytesAllocated + .ofNat b.size = .ofNat (b.size + total _ (Event.blocks log))
    rw [counts.bytesAllocated, UInt64.ofNat_add, UInt64.add_comm]
  blocksSinceMark := by
    change s.blocksSinceMark + 1 = .ofNat ((Event.recent log).length + 1)
    rw [counts.blocksSinceMark, UInt64.ofNat_add]
    rfl
  bytesSinceMark := by
    change s.bytesSinceMark + .ofNat b.size = .ofNat (b.size + total _ (Event.recent log))
    rw [counts.bytesSinceMark, UInt64.ofNat_add, UInt64.add_comm]
  bytesAtLastMark := counts.bytesAtLastMark
  collections := counts.collections
  liveBlocks := counts.liveBlocks
  liveBytes := counts.liveBytes
  blocksFreed := counts.blocksFreed
  bytesFreed := counts.bytesFreed
  pagesReleased := counts.pagesReleased

theorem count_recordCollection (counts : s.Count log) (nanos : Nat) (report : SweepReport) :
    (s.recordCollection nanos report).Count (.collected report :: log) where
  blocksAllocated := counts.blocksAllocated
  bytesAllocated := counts.bytesAllocated
  blocksSinceMark := rfl
  bytesSinceMark := rfl
  bytesAtLastMark := counts.bytesAllocated
  collections := by
    change s.collections + 1 = .ofNat ((Event.reports log).length + 1)
    rw [counts.collections, UInt64.ofNat_add]
    rfl
  liveBlocks := rfl
  liveBytes := rfl
  blocksFreed := by
    change s.blocksFreed + _ = .ofNat (report.freedBlocks + total _ (Event.reports log))
    rw [counts.blocksFreed, UInt64.ofNat_add, UInt64.add_comm]
  bytesFreed := by
    change s.bytesFreed + _ = .ofNat (report.freedBytes + total _ (Event.reports log))
    rw [counts.bytesFreed, UInt64.ofNat_add, UInt64.add_comm]
  pagesReleased := by
    change s.pagesReleased + _ = .ofNat (report.pagesReleased + total _ (Event.reports log))
    rw [counts.pagesReleased, UInt64.ofNat_add, UInt64.add_comm]

end Stats

/-- Whether a report accounts for what the events before it had left in use: it keeps or frees what
was handed out and not freed. -/
structure SweepReport.Settles (report : SweepReport) (earlier : List Event) : Prop where
  blocks : report.liveBlocks + report.freedBlocks +
    total (·.freedBlocks) (Event.reports earlier) = (Event.blocks earlier).length
  bytes : report.liveBytes + report.freedBytes +
    total (·.freedBytes) (Event.reports earlier) = total (·.size) (Event.blocks earlier)

namespace Heap

/-- Whether nothing that the log tells of is lost: blocks handed out are freed or in use, pages
mapped are released or owned, and stops asked for came about or were given up. -/
structure Conserves (h : Heap) (log : List Event) : Prop where
  counts : h.stats.Count log
  blocks : (Event.blocks log).length =
    total (·.freedBlocks) (Event.reports log) + h.arena.liveBlocks
  bytes : total (·.size) (Event.blocks log) =
    total (·.freedBytes) (Event.reports log) + h.arena.liveBytes
  pages : total (·.pagesReleased) (Event.reports log) + h.arena.slabs.size = h.arena.mapped
  reported : ∀ later report earlier, log = later ++ .collected report :: earlier →
    report.Settles earlier
  stops : h.safepoint.requests = h.safepoint.achieved + h.safepoint.timeouts

theorem Conserves.of_same {h h' : Heap} {log : List Event} (conserves : h.Conserves log)
    (stats : h'.stats = h.stats)
    (arena : h'.arena.liveBlocks = h.arena.liveBlocks ∧ h'.arena.liveBytes = h.arena.liveBytes ∧
      h'.arena.slabs.size = h.arena.slabs.size ∧ h'.arena.mapped = h.arena.mapped)
    (stops : h'.safepoint.requests = h'.safepoint.achieved + h'.safepoint.timeouts) :
    h'.Conserves log where
  counts := stats ▸ conserves.counts
  blocks := by rw [arena.1, conserves.blocks]
  bytes := by rw [arena.2.1, conserves.bytes]
  pages := by rw [arena.2.2.1, arena.2.2.2, conserves.pages]
  reported := conserves.reported
  stops := stops

theorem stops_of_tally {s t : Safepoint} (same : t.tally = s.tally)
    (stops : s.requests = s.achieved + s.timeouts) : t.requests = t.achieved + t.timeouts := by
  simp only [Safepoint.tally, Prod.mk.injEq] at same
  obtain ⟨requests, achieved, timeouts⟩ := same
  rw [requests, achieved, timeouts, stops]

theorem Quiet.conserves {h h' : Heap} {log : List Event} (quiet : h.Quiet h')
    (conserves : h.Conserves log) : h'.Conserves log :=
  conserves.of_same quiet.stats (by rw [quiet.arena]; exact ⟨rfl, rfl, rfl, rfl⟩)
    (stops_of_tally quiet.tally conserves.stops)

theorem Conserves.ofStop {h g : Heap} {log : List Event} (conserves : h.Conserves log)
    (parking : Quiet { h with safepoint := h.safepoint.request } g) {p : Safepoint}
    (ends : p.requests = g.safepoint.requests ∧
      p.achieved + p.timeouts = g.safepoint.achieved + g.safepoint.timeouts + 1) :
    ({ g with safepoint := p } : Heap).Conserves log := by
  refine conserves.of_same parking.stats (by rw [parking.arena]; exact ⟨rfl, rfl, rfl, rfl⟩) ?_
  -- Parking does not count, so the request is the one that is still to be settled.
  have same := parking.tally
  simp only [Safepoint.tally, Safepoint.request, Prod.mk.injEq] at same
  obtain ⟨requests, achieved, timeouts⟩ := same
  have stops := conserves.stops
  change p.requests = p.achieved + p.timeouts
  lia

section Steps

variable {h h' : Heap} {log events : List Event} {host : Host} {size : Nat} {kind : BlockKind}
  {a : Arena}

theorem conserves_refuse (orderly : h.Orderly) (conserves : h.Conserves log)
    (aligned : host.IsAligned) {e : Error}
    (asked : h.arena.allocate host size kind = (.error e, a)) :
    ({ h with arena := a } : Heap).Conserves log := by
  obtain ⟨blocks, bytes⟩ := Arena.counts_of_refused orderly.tallied aligned asked
  have pages := Arena.pages_allocate orderly.tallied aligned asked
  have before := conserves.pages
  exact { conserves with
    blocks := by rw [blocks]; exact conserves.blocks
    bytes := by rw [bytes]; exact conserves.bytes
    pages := by
      change _ + a.slabs.size = a.mapped
      lia }

theorem reported_cons {event : Event} (conserves : h.Conserves log)
    (here : ∀ report, event = .collected report → report.Settles log) :
    ∀ later report earlier, event :: log = later ++ .collected report :: earlier →
      report.Settles earlier := by
  intro later report earlier split
  cases later with
  | nil =>
    obtain ⟨same, rfl⟩ := List.cons.inj split
    exact here report same
  | cons other later => exact conserves.reported later report earlier (List.cons.inj split).2

theorem conserves_allocate (orderly : h.Orderly) (conserves : h.Conserves log)
    (aligned : host.IsAligned) {b : Block}
    (asked : h.arena.allocate host size kind = (.ok b, a)) :
    ({ h with arena := a, stats := h.stats.recordAllocation b.size } : Heap).Conserves
      (.allocated b :: log) := by
  obtain ⟨blocks, bytes⟩ := Arena.counts_of_granted orderly.tallied aligned asked
  have pages := Arena.pages_allocate orderly.tallied aligned asked
  have before := conserves.pages
  exact {
    counts := Stats.count_recordAllocation conserves.counts b
    blocks := by
      change (Event.blocks log).length + 1 = total _ (Event.reports log) + a.liveBlocks
      rw [blocks, conserves.blocks, Nat.add_assoc]
    bytes := by
      change b.size + total _ (Event.blocks log) = total _ (Event.reports log) + a.liveBytes
      rw [bytes, conserves.bytes]
      lia
    pages := by
      change total _ (Event.reports log) + a.slabs.size = a.mapped
      lia
    reported := reported_cons conserves nofun
    stops := conserves.stops }

theorem settles_sweep (orderly : h.Orderly) (conserves : h.Conserves log) :
    h.arena.sweep.1.Settles log := by
  obtain ⟨blocks, bytes, -⟩ := Arena.counts_sweep orderly.tallied.filed
  exact ⟨by rw [blocks, conserves.blocks, Nat.add_comm],
    by rw [bytes, conserves.bytes, Nat.add_comm]⟩

theorem conserves_collect (orderly : h.Orderly) (conserves : h.Conserves log) (nanos : Nat) :
    ({ h.sweep.2.resumeWorld with
      stats := h.sweep.2.resumeWorld.stats.recordCollection nanos h.sweep.1 } : Heap).Conserves
      (.collected h.sweep.1 :: log) := by
  have settles := settles_sweep orderly conserves
  obtain ⟨-, -, pages⟩ := Arena.counts_sweep orderly.tallied.filed
  have before := conserves.pages
  exact {
    counts := Stats.count_recordCollection conserves.counts nanos h.sweep.1
    blocks := by
      change (Event.blocks log).length = h.arena.sweep.1.freedBlocks +
        total _ (Event.reports log) + h.arena.sweep.1.liveBlocks
      rw [← settles.blocks]
      lia
    bytes := by
      change total _ (Event.blocks log) = h.arena.sweep.1.freedBytes +
        total _ (Event.reports log) + h.arena.sweep.1.liveBytes
      rw [← settles.bytes]
      lia
    pages := by
      change h.arena.sweep.1.pagesReleased + total _ (Event.reports log) +
        h.arena.sweep.2.slabs.size = h.arena.mapped
      lia
    reported := reported_cons conserves fun report same => by
      obtain rfl := Event.collected.inj same
      exact settles
    stops := conserves.stops }

theorem conserves_of_step (orderly : h.Orderly) (conserves : h.Conserves log)
    (step : h.Step events h') : h'.Conserves (events ++ log) := by
  cases step with
  | quiet same => exact same.conserves conserves
  | write w held inside => exact conserves.of_same rfl (Arena.counts_write _ _ _) conserves.stops
  | achieve parking => exact conserves.ofStop parking ⟨rfl, Nat.add_right_comm ..⟩
  | abandon parking => exact conserves.ofStop parking ⟨rfl, rfl⟩
  | mark same pending => exact conserves.of_same rfl (Arena.counts_congr same) conserves.stops
  | refuse aligned asked => exact conserves_refuse orderly conserves aligned asked
  | allocate aligned asked => exact conserves_allocate orderly conserves aligned asked
  | collect nanos => exact conserves_collect orderly conserves nanos

theorem conserves_new {config : Config} (made : Heap.new config = .ok h) : h.Conserves [] := by
  obtain ⟨-, rfl⟩ := new_cases made
  exact ⟨Stats.count_nil, rfl, rfl, rfl, by simp, rfl⟩

end Steps

theorem Logged.conserves {config : Config} {h : Heap} {log : List Event}
    (logged : Logged config h log) : h.Orderly ∧ h.Conserves log :=
  logged.induction (fun _ made => conserves_new made)
    fun _ _ _ _ orderly conserves step => conserves_of_step orderly conserves step

end Heap

namespace Event

/-- Whether what the counters count of a log fits a machine word, so that none has come round. -/
structure Fits (log : List Event) : Prop where
  blocks : (Event.blocks log).length < UInt64.size
  bytes : total (·.size) (Event.blocks log) < UInt64.size
  collections : (reports log).length < UInt64.size
  pages : total (·.pagesReleased) (reports log) < UInt64.size

theorem recent_append_past (log : List Event) : recent log ++ past log = blocks log := by
  induction log with
  | nil => rfl
  | cons event log ih =>
    cases event with
    | allocated b => exact congrArg (b :: ·) ih
    | collected report => rfl

theorem exists_of_reports {log : List Event} {report : SweepReport} {others : List SweepReport}
    (last : reports log = report :: others) :
    ∃ later earlier, log = later ++ .collected report :: earlier := by
  induction log with
  | nil => cases last
  | cons event log ih =>
    cases event with
    | allocated b =>
      obtain ⟨later, earlier, rfl⟩ := ih last
      exact ⟨.allocated b :: later, earlier, rfl⟩
    | collected report' =>
      obtain ⟨rfl, -⟩ := List.cons.inj last
      exact ⟨[], log, rfl⟩

end Event

namespace Heap

variable {config : Config} {h : Heap} {log : List Event}

/-- Whether the figures of a heap balance, against its blocks and pages and against its log. -/
structure Balances (h : Heap) (log : List Event) : Prop where
  listed : h.arena.blocks.Nodup ∧ ∀ b, b ∈ h.arena.blocks ↔ h.arena.Holds b
  blocks : h.stats.blocksAllocated.toNat = h.stats.blocksFreed.toNat + h.arena.blocks.length
  bytes : h.stats.bytesAllocated.toNat =
    h.stats.bytesFreed.toNat + total (·.size) h.arena.blocks
  bytesSinceMark : h.stats.bytesAllocated.toNat =
    h.stats.bytesAtLastMark.toNat + h.stats.bytesSinceMark.toNat
  blocksSinceMark : h.stats.blocksSinceMark.toNat = (Event.recent log).length
  pages : h.stats.pagesReleased.toNat + h.arena.slabs.size = h.arena.mapped
  collections : h.stats.collections.toNat = (Event.reports log).length
  liveBlocks : h.stats.liveBlocks.toNat = Event.lastKept (·.liveBlocks) log
  liveBytes : h.stats.liveBytes.toNat = Event.lastKept (·.liveBytes) log
  reported : ∀ later report earlier, log = later ++ .collected report :: earlier →
    report.Settles earlier
  /-- Each collection that there may be next and that an operation reports on. -/
  answered : ∀ operation report, h.Admits operation →
    (h.perform operation).1.report? = some report →
      report.liveBlocks + report.freedBlocks = h.arena.blocks.length ∧
        report.liveBytes + report.freedBytes = total (·.size) h.arena.blocks
  stops : h.safepoint.requests = h.safepoint.achieved + h.safepoint.timeouts

theorem lastKept_le (conserves : h.Conserves log) :
    Event.lastKept (·.liveBlocks) log ≤ (Event.blocks log).length ∧
      Event.lastKept (·.liveBytes) log ≤ total (·.size) (Event.blocks log) := by
  cases kept : Event.reports log with
  | nil => simp [Event.lastKept, kept]
  | cons report others =>
    obtain ⟨later, earlier, rfl⟩ := Event.exists_of_reports kept
    obtain ⟨blocks, bytes⟩ := conserves.reported later report earlier rfl
    rw [Event.blocks_append, List.length_append, total_append, Event.lastKept, Event.lastKept, kept]
    change report.liveBlocks ≤ _ + (Event.blocks earlier).length ∧
      report.liveBytes ≤ _ + total (·.size) (Event.blocks earlier)
    lia

theorem settles_of_answered (logged : Logged config h log) {operation : Operation}
    {report : SweepReport} (admitted : h.Admits operation)
    (answered : (h.perform operation).1.report? = some report) : report.Settles log := by
  obtain ⟨events, steps, told⟩ := steps_perform operation admitted
  obtain ⟨later, rfl⟩ := told.report report answered
  have conserves := (logged.perform operation admitted steps told).conserves.2
  exact conserves.reported later report log (by rw [List.append_assoc]; rfl)

theorem balances_of_logged (logged : Logged config h log) (fits : Event.Fits log) :
    h.Balances log := by
  obtain ⟨orderly, conserves⟩ := logged.conserves
  have counts := conserves.counts
  have inUse := Arena.length_blocks_of_filed orderly.tallied.filed
  have inUse' := Arena.total_size_blocks_of_filed orderly.tallied.filed
  have blocks := conserves.blocks
  have bytes := conserves.bytes
  have parts := congrArg List.length (Event.recent_append_past log)
  have parts' := congrArg (total (·.size)) (Event.recent_append_past log)
  rw [List.length_append] at parts
  rw [total_append] at parts'
  obtain ⟨kept, kept'⟩ := lastKept_le conserves
  have small := fits.blocks
  have small' := fits.bytes
  -- Each count is at the most one of the totals that fit, so its word shows it.
  have word : ∀ {w : UInt64} {n : Nat}, w = .ofNat n → n < UInt64.size → w.toNat = n := by
    rintro w n rfl below
    exact UInt64.toNat_ofNat_of_lt' below
  have blocksAllocated := word counts.blocksAllocated small
  have bytesAllocated := word counts.bytesAllocated small'
  have blocksFreed := word counts.blocksFreed (by lia)
  have bytesFreed := word counts.bytesFreed (by lia)
  have bytesSinceMark := word counts.bytesSinceMark (by lia)
  have bytesAtLastMark := word counts.bytesAtLastMark (by lia)
  exact {
    listed := ⟨Arena.nodup_blocks orderly.tallied.sound,
      fun b => Arena.mem_blocks orderly.tallied.sound⟩
    blocks := by lia
    bytes := by lia
    bytesSinceMark := by lia
    blocksSinceMark := word counts.blocksSinceMark (by lia)
    pages := by rw [word counts.pagesReleased fits.pages, conserves.pages]
    collections := word counts.collections fits.collections
    liveBlocks := word counts.liveBlocks (by lia)
    liveBytes := word counts.liveBytes (by lia)
    reported := conserves.reported
    answered := by
      intro operation report admitted answered
      obtain ⟨settles, settles'⟩ := settles_of_answered logged admitted answered
      lia
    stops := conserves.stops }

/-- **The figures of a heap balance**, whatever a program does to it, as long as no counter has come
round. -/
theorem balances_of_reachable (run : Reachable config h) :
    (∃ log, Logged config h log) ∧
      ∀ log, Logged config h log → Event.Fits log → h.Balances log :=
  ⟨run.exists_logged, fun _ logged fits => balances_of_logged logged fits⟩

theorem allocate_of_noMark (env : Embedding) (caller : Option Caller) {size : Nat}
    {kind : BlockKind} {b : Block} {a : Arena} (off : h.flags.noMark = true)
    (asked : h.arena.allocate env.host size kind = (.ok b, a)) :
    h.allocate env caller size kind =
      (.done b, { h with arena := a, stats := h.stats.recordAllocation b.size }) := by
  unfold allocate maybeCollect allocateNow
  rw [if_pos off]
  simp only [asked]

def blank : Heap :=
  { config := .testing 0, flags := (Config.testing 0).flags, arena := Arena.new 4096 0 }

def afterBlock : Heap := (blank.perform (.allocate .sample none 4096 .raw)).2

theorem logged_afterBlock : Logged (.testing 0) afterBlock [.allocated ⟨65536, 4096⟩] := by
  have trusted := Embedding.isSound_sample
  have asked : (blank.arena.allocate Embedding.sample.host 4096 .raw).1 = .ok ⟨65536, 4096⟩ := by
    decide +kernel
  have done := allocate_of_noMark (h := blank) .sample none rfl (Prod.ext asked rfl)
  have step := Step.allocate (h := blank) trusted.1.1 (Prod.ext asked rfl)
  have steps : blank.Steps [.allocated ⟨65536, 4096⟩] afterBlock := by
    simp only [afterBlock, perform, done]
    exact .single step
  have told : (blank.perform (.allocate .sample none 4096 .raw)).1.Tells
      [.allocated ⟨65536, 4096⟩] := by
    simp only [perform, done]
    exact ⟨rfl, by simp [Answer.report?], by simp [Answer.events?]⟩
  exact Logged.perform (.allocate .sample none 4096 .raw) (.new rfl) ⟨trusted, by simp⟩ steps told

theorem balances_of_reachable_afterBlock :
    ∃ h log, Reachable (.testing 0) h ∧ Logged (.testing 0) h log ∧ Event.Fits log ∧
      h.Balances log ∧ h.stats.blocksAllocated = 1 ∧ h.stats.blocksFreed = 1 ∧
      h.stats.pagesReleased = 1 ∧ h.arena.mapped = 1 ∧ h.stats.collections = 1 := by
  have admitted : afterBlock.Admits (.collect .sample none .forever) :=
    ⟨Embedding.isSound_sample, by simp⟩
  have collected : (afterBlock.collect .sample none .forever).1 =
      .done (some ⟨⟨0, 0, 0, 0⟩, ⟨0, 0, 1, 4096, 1⟩⟩) := by
    decide +kernel
  obtain ⟨events, steps, told⟩ := steps_perform _ admitted
  have answer : (afterBlock.perform (.collect .sample none .forever)).1 =
      .collected (.done (some ⟨⟨0, 0, 0, 0⟩, ⟨0, 0, 1, 4096, 1⟩⟩)) :=
    congrArg Answer.collected collected
  obtain rfl := told.all [.collected ⟨0, 0, 1, 4096, 1⟩] (by rw [answer]; rfl)
  have logged := logged_afterBlock.perform _ admitted steps told
  have fits : Event.Fits ([.collected ⟨0, 0, 1, 4096, 1⟩] ++ [.allocated ⟨65536, 4096⟩]) :=
    ⟨by decide, by decide, by decide, by decide⟩
  exact ⟨_, _, logged.reachable, logged, fits,
    (balances_of_reachable logged.reachable).2 _ logged fits, by decide +kernel, by decide +kernel,
    by decide +kernel, by decide +kernel, by decide +kernel⟩

end Heap

end MarkSweep
