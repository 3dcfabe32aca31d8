import MarkSweep.Proofs.PoolTracing

set_option autoImplicit false

namespace MarkSweep

namespace Pool

/-- Whether a pool is in the same run as another one, with the same heap but for its marks. -/
structure Continues (p q : Pool) : Prop where
  start : q.start = p.start
  around : q.around = p.around
  marks : q.arena.clearMarks = p.arena.clearMarks

variable {workers interval minDispatch : Nat} {p q : Pool}

theorem continues_workerTurn {i : Nat} {w : Worker} {grows : Bool}
    (turn : p.WorkerTurn grows i w q) : p.Continues q := by
  cases turn with
  | scans stage working advanced =>
    have marks := Scanner.clearMarks_advance p.around grows p.arena w.scanner
    rw [advanced] at marks
    exact ⟨rfl, rfl, marks⟩
  | fails stage working advanced =>
    have marks := Scanner.clearMarks_advance p.around grows p.arena w.scanner
    rw [advanced] at marks
    exact ⟨rfl, rfl, marks⟩
  | _ => exact ⟨rfl, rfl, rfl⟩

theorem continues_send (grows : Bool) (i count : Nat) (p : Pool) :
    p.Continues (p.send grows i count) := by
  unfold send
  simp only
  split
  · exact ⟨rfl, rfl, rfl⟩
  · split <;> exact ⟨rfl, rfl, rfl⟩

theorem continues_leaderTurn {grows : Bool} (turn : p.LeaderTurn grows q) : p.Continues q := by
  cases turn with
  | @sends i count rest here =>
    obtain ⟨start, around, marks⟩ := continues_send grows i count p
    exact ⟨start, around, marks⟩
  | scans here working advanced =>
    have marks := Scanner.clearMarks_advance p.around grows p.arena p.scanner
    rw [advanced] at marks
    exact ⟨rfl, rfl, marks⟩
  | fails here advanced =>
    have marks := Scanner.clearMarks_advance p.around grows p.arena p.scanner
    rw [advanced] at marks
    exact ⟨rfl, rfl, marks⟩
  | _ => exact ⟨rfl, rfl, rfl⟩

theorem continues_lose {i : Nat} (taken : p.lose i = some q) : p.Continues q := by
  unfold lose at taken
  cases found : p.workers[i]? with
  | none => simp [found] at taken
  | some w =>
    simp only [found, Option.bind_eq_bind, Option.bind_some] at taken
    split at taken
    · simp at taken
    · obtain rfl := Option.some.inj taken
      exact ⟨rfl, rfl, rfl⟩

theorem orderly_of_reachable (few : workers ≤ maxMarkThreads)
    (run : Pool.Reachable workers interval minDispatch p) : p.Orderly := by
  induction run with
  | new => exact orderly_new few interval minDispatch
  | step action before taken order =>
    cases action with
    | begin around start => exact orderly_begin order taken
    | leader grows => exact orderly_leaderTurn order (leaderTurn_of_leaderStep taken)
    | worker i grows free =>
      obtain ⟨w, found, turn⟩ := workerTurn_of_workerStep taken
      exact orderly_workerTurn order found turn
    | lose i => exact orderly_lose order taken

theorem clearMarks_of_reachable (run : Pool.Reachable workers interval minDispatch p) :
    p.arena.clearMarks = p.start.arena.clearMarks := by
  induction run with
  | new => rfl
  | step action before taken same =>
    have continued : ∀ {p q : Pool}, p.Continues q → p.arena.clearMarks = p.start.arena.clearMarks →
        q.arena.clearMarks = q.start.arena.clearMarks := by
      intro p q continues same
      rw [continues.marks, continues.start, same]
    cases action with
    | begin around start =>
      simp only [Pool.step, begin] at taken
      split at taken
      · obtain rfl := Option.some.inj taken
        rfl
      · simp at taken
    | leader grows => exact continued (continues_leaderTurn (leaderTurn_of_leaderStep taken)) same
    | worker i grows free =>
      obtain ⟨w, found, turn⟩ := workerTurn_of_workerStep taken
      exact continued (continues_workerTurn turn) same
    | lose i => exact continued (continues_lose taken) same

theorem onTrack_of_allIdle (order : p.Orderly) (idle : p.AllIdle) (seeded : p.start.Seeded)
    (arena : p.arena = p.start.arena) (scanner : p.scanner = { pending := p.start.pending })
    (shared : p.surplus = [] ∧ p.scanned = 0 ∧ p.cancelled = false)
    (record : p.scans = [] ∧ p.faults = [])
    (leader : p.leader = .dealing ∨ p.leader = .resting none) : p.OnTrack := by
  obtain ⟨surplus, scanned, calm⟩ := shared
  obtain ⟨scans, faults⟩ := record
  have none_said : ¬ p.leader.IsDry ∧ ¬ p.leader.IsOver := by
    obtain h | h := leader <;> simp [h, LeaderStage.IsDry, LeaderStage.IsOver]
  refine ⟨?_, ?_, calm, faults, ?_, fun _ => by rw [scanner], fun h => absurd h none_said.1,
    fun h => absurd h none_said.2, LeaderStage.counts_of_not_isOver none_said.2⟩
  · rw [load_of_allIdle order idle, hands_of_allIdle order idle, arena, scanner, surplus, scans,
      List.append_nil]
    exact Arena.tracing_start seeded.sound seeded.nodup seeded.marked
  · rw [uncounted_of_allIdle order idle, scanner, scanned, scans]
    rfl
  · intro i w found
    have same := ((order.worker i w found).rested (idle i w found).1).1
    exact ⟨fun _ => by rw [same], fun _ => by rw [same]⟩

/-- A new run is on track if nobody was lost and no failure was left behind. -/
theorem doomed_or_onTrack_begin {around : Surroundings} {m : Marker} (order : p.Orderly)
    (order' : q.Orderly) (seeded : q.start.Seeded) (taken : p.begin around m = some q) :
    q.Doomed ∨ q.OnTrack := by
  unfold begin at taken
  split at taken
  · next result stage =>
    obtain rfl := Option.some.inj taken
    have waited := order.waited (by simp [stage, LeaderStage.HasWaited])
    obtain idle | ⟨i, w, found, lost⟩ := waited
    · exact .inr (onTrack_of_allIdle order' idle seeded rfl rfl ⟨rfl, rfl, rfl⟩ ⟨rfl, rfl⟩
        (.inl rfl))
    · exact .inl (.inr (.inr ⟨i, w, found, by rw [lost]; trivial⟩))
  · simp at taken

theorem doomed_or_onTrack (few : workers ≤ maxMarkThreads)
    (run : Pool.Reachable workers interval minDispatch p) (seeded : p.start.Seeded) :
    p.Doomed ∨ p.OnTrack := by
  induction run with
  | new =>
    have order := orderly_new few interval minDispatch
    exact .inr (onTrack_of_allIdle order (order.quiet trivial) seeded rfl rfl ⟨rfl, rfl, rfl⟩
      ⟨rfl, rfl⟩ (.inr rfl))
  | @step p q action before taken ih =>
    have order := orderly_of_reachable few before
    cases action with
    | begin around start =>
      exact doomed_or_onTrack_begin order (orderly_begin order taken) seeded taken
    | leader grows =>
      have turn := leaderTurn_of_leaderStep taken
      have continues := continues_leaderTurn turn
      rw [continues.start] at seeded
      obtain doomed | track := ih seeded
      · exact .inl (doomed_leaderTurn order doomed turn)
      · exact onTrack_leaderTurn order seeded.sound seeded.marked track turn
    | worker i grows free =>
      obtain ⟨w, found, turn⟩ := workerTurn_of_workerStep taken
      have continues := continues_workerTurn turn
      rw [continues.start] at seeded
      obtain doomed | track := ih seeded
      · exact .inl (doomed_workerTurn found doomed turn)
      · exact onTrack_workerTurn order seeded.sound seeded.marked track found turn
    | lose i => exact .inl (doomed_lose taken)

theorem no_turn_of_idle {i : Nat} {w : Worker} {grows : Bool} (idle : w.IsIdle) :
    ¬ p.WorkerTurn grows i w q := by
  intro turn
  cases turn with
  | receives stage shares => simp [idle.2] at shares
  | stops stage | resumes stage | dries stage | pauses stage | scans stage | fails stage
  | ends stage | refills stage | overflows e stage | declines stage | seesLeader stage
  | doubts stage | seesNobody stage | seesWorker stage | offers stage | counts stage
  | cancels stage | records stage | leaves stage =>
    rw [idle.1] at stage
    cases stage

theorem failure_eq_none_of_leaderTurn {grows : Bool} (turn : p.LeaderTurn grows q) {n : Nat}
    (returned : q.leader = .resting (some (.ok n))) : q.failure = none := by
  cases turn with
  | follows here follows => cases follows <;> nomatch returned
  | @refills nobodyActive here => cases nobodyActive <;> nomatch returned
  | returns here failure => exact failure
  | _ => nomatch returned

theorem failure_eq_none_of_returned (few : workers ≤ maxMarkThreads)
    (run : Pool.Reachable workers interval minDispatch p) {n : Nat}
    (returned : p.leader = .resting (some (.ok n))) : p.failure = none := by
  induction run with
  | new => simp [new] at returned
  | @step p q action before taken ih =>
    have order := orderly_of_reachable few before
    cases action with
    | begin around start =>
      simp only [Pool.step, begin] at taken
      split at taken
      · obtain rfl := Option.some.inj taken
        simp at returned
      · simp at taken
    | leader grows => exact failure_eq_none_of_leaderTurn (leaderTurn_of_leaderStep taken) returned
    | worker i grows free =>
      obtain ⟨w, found, turn⟩ := workerTurn_of_workerStep taken
      have same : q.leader = p.leader := by cases turn <;> rfl
      rw [same] at returned
      have idle := order.quiet (by rw [returned]; trivial) i w found
      exact absurd turn (no_turn_of_idle idle)
    | lose i =>
      simp only [Pool.step, lose] at taken
      cases found : p.workers[i]? with
      | none => simp [found] at taken
      | some w =>
        have same : p.leader = .resting (some (.ok n)) := by
          simp only [found, Option.bind_eq_bind, Option.bind_some] at taken
          split at taken
          · simp at taken
          · obtain rfl := Option.some.inj taken
            exact returned
        have idle := order.quiet (by rw [same]; trivial) i w found
        simp [found, idle.1] at taken

theorem onTrack_of_returned (few : workers ≤ maxMarkThreads)
    (run : Pool.Reachable workers interval minDispatch p) (seeded : p.start.Seeded) {n : Nat}
    (returned : p.leader = .resting (some (.ok n))) : p.AllIdle ∧ p.OnTrack := by
  have idle := (orderly_of_reachable few run).quiet (by rw [returned]; trivial)
  refine ⟨idle, (doomed_or_onTrack few run seeded).resolve_left ?_⟩
  rintro (h | h | ⟨i, w, found, h⟩)
  · simp [failure_eq_none_of_returned few run returned] at h
  · rw [returned] at h
    exact h
  · rw [(idle i w found).1] at h
    exact h

theorem tracing_of_returned (few : workers ≤ maxMarkThreads)
    (run : Pool.Reachable workers interval minDispatch p) (seeded : p.start.Seeded) {n : Nat}
    (returned : p.leader = .resting (some (.ok n))) :
    p.waiting = [] ∧ n = p.scans.length ∧
      p.start.arena.Tracing p.around p.start.pending.entries p.arena p.scans [] [] := by
  obtain ⟨idle, track⟩ := onTrack_of_returned few run seeded returned
  have order := orderly_of_reachable few run
  have dry := track.dry (by simp [returned, LeaderStage.IsDry, LeaderStage.IsOver])
  have nothing := (track.quiet (by rw [returned]; trivial)).2
  have words := track.words (by simp [returned])
  have tracing := track.tracing
  have counts := track.counts
  rw [returned] at counts
  rw [load_of_allIdle order idle, hands_of_allIdle order idle, dry, nothing, words] at tracing
  refine ⟨?_, counts, tracing⟩
  rw [waiting_of_allIdle order idle, nothing, MarkStack.toList, dry]
  rfl

theorem returned?_eq_some {out : Except Error Nat × Marker} (returned : p.returned? = some out) :
    ∃ result, p.leader = .resting (some result) ∧
      out = (result, { arena := p.arena, pending := p.scanner.pending }) := by
  unfold returned? at returned
  split at returned
  · next result stage => exact ⟨result, stage, (Option.some.inj returned).symm⟩
  · simp at returned

end Pool

namespace Marker

variable {ctx : MarkContext} {m : Marker}

theorem clearMarks_of_emptied {out : Except Error Nat × Marker} (emptied : m.Emptied ctx out) :
    out.2.arena.clearMarks = m.arena.clearMarks := by
  cases emptied with
  | alone => exact clearMarks_drain ctx m.fuel m
  | together few often run start around returned =>
    obtain ⟨result, -, rfl⟩ := Pool.returned?_eq_some returned
    rw [← start]
    exact Pool.clearMarks_of_reachable run

/-- However the stack is emptied, if it is the tracing is done. -/
theorem tracing_of_emptied (seeded : m.Seeded) {n : Nat} {m' : Marker}
    (emptied : m.Emptied ctx (.ok n, m')) :
    ∃ scans, n = scans.length ∧
      m.arena.Tracing ctx.toSurroundings m.pending.entries m'.arena scans [] [] := by
  generalize hout : (Except.ok n, m') = out at emptied
  cases emptied with
  | alone =>
    obtain ⟨m'', scans, run, -, tracing⟩ := drainAll_ok seeded ctx
    rw [run, Prod.mk.injEq, Except.ok.injEq] at hout
    obtain ⟨rfl, rfl⟩ := hout
    exact ⟨scans, rfl, tracing⟩
  | @together _ _ _ p _ few often run start around returned =>
    obtain ⟨result, stage, hp⟩ := Pool.returned?_eq_some returned
    rw [← hout, Prod.mk.injEq] at hp
    obtain ⟨rfl, rfl⟩ := hp
    obtain ⟨-, count, tracing⟩ := Pool.tracing_of_returned few run (start ▸ seeded) stage
    rw [start, around] at tracing
    exact ⟨p.scans, count, tracing⟩

end Marker

end MarkSweep
