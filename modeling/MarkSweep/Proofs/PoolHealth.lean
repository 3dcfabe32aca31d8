import MarkSweep.Proofs.PoolFaults

set_option autoImplicit false

namespace MarkSweep

namespace Pool

/-- The states that a pool gets to while every mark stack can grow and no thread ends in the middle
of its work. Each run begins with distinct marked blocks on the stack. -/
inductive Undisturbed (workers interval minDispatch : Nat) : Pool → Prop
  | new : Undisturbed workers interval minDispatch (Pool.new workers interval minDispatch)
  | begin {p q : Pool} {around : Surroundings} {m : Marker}
      (before : Undisturbed workers interval minDispatch p) (seeded : m.Seeded)
      (taken : p.begin around m = some q) : Undisturbed workers interval minDispatch q
  | leader {p q : Pool} (before : Undisturbed workers interval minDispatch p)
      (taken : p.leaderStep true = some q) : Undisturbed workers interval minDispatch q
  | worker {p q : Pool} {i : Nat} {free : Bool}
      (before : Undisturbed workers interval minDispatch p)
      (taken : p.workerStep i true free = some q) : Undisturbed workers interval minDispatch q

variable {workers interval minDispatch : Nat} {p q : Pool}

theorem Undisturbed.reachable (run : Pool.Undisturbed workers interval minDispatch p) :
    Pool.Reachable workers interval minDispatch p := by
  induction run with
  | new => exact .new
  | begin before seeded taken ih => exact .step (.begin _ _) ih taken
  | leader before taken ih => exact .step (.leader true) ih taken
  | worker before taken ih => exact .step (.worker _ true _) ih taken

end Pool

theorem Scanner.advance_ok {around : Surroundings} {a : Arena} {s : Scanner}
    (known : ∀ x ∈ s.pending.entries, ∃ words, a.references around x = .ok words) :
    ∃ t b, s.advance around true a = (.ok t, b) := by
  unfold advance
  split
  · split
    · exact ⟨_, _, rfl⟩
    · split <;> exact ⟨_, _, rfl⟩
  · split
    · next budget x pending enough next =>
      have waits : x ∈ s.pending.entries := by
        rw [MarkStack.pop_eq_some_iff.1 next]
        exact List.mem_cons_self
      obtain ⟨words, found⟩ := known x waits
      exact ⟨_, _, by rw [found]⟩
    · exact ⟨_, _, rfl⟩

namespace Pool

variable {p q : Pool}

theorem OnTrack.references_ok (track : p.OnTrack) (seeded : p.start.Seeded) {x : Addr}
    (waits : x ∈ p.load) : ∃ words, p.arena.references p.around x = .ok words := by
  have traced := track.tracing.traced x (List.mem_append_right _ waits)
  obtain ⟨words, found⟩ :=
    Arena.exists_references p.around seeded.sound (traced.starts seeded.marked)
  exact ⟨words, (Arena.references_congr track.tracing.marked.1 p.around x).trans found⟩

theorem healthy_put {i : Nat} {v w : Worker} {r : Pool} (healthy : ¬ p.Doomed)
    (found : p.workers[i]? = some w) (workers : r.workers = p.workers)
    (leader : r.leader = p.leader) (failure : r.failure = p.failure)
    (well : ¬ v.stage.HasFailed) : ¬ (r.put i v).Doomed := by
  have get : ∀ j, (r.put i v).workers[j]? = if i = j then some v else p.workers[j]? := by
    intro j
    rw [getElem?_put (workers ▸ found) v j, workers]
  rintro (h | h | ⟨j, u, hu, h⟩)
  · exact healthy (.inl (failure ▸ h))
  · exact healthy (.inr (.inl (leader ▸ h)))
  · rw [get] at hu
    split at hu
    · obtain rfl := Option.some.inj hu
      exact well h
    · exact healthy (.inr (.inr ⟨j, u, hu, h⟩))

theorem healthy_workerTurn (healthy : ¬ p.Doomed) (track : p.OnTrack) (seeded : p.start.Seeded)
    {i : Nat} {w : Worker} (found : p.workers[i]? = some w) (turn : p.WorkerTurn true i w q) :
    ¬ q.Doomed := by
  have well : ¬ w.stage.HasFailed := fun failed => healthy (.inr (.inr ⟨i, w, found, failed⟩))
  cases turn with
  | fails stage working advanced =>
    have known : ∀ x ∈ w.scanner.pending.entries,
        ∃ words, p.arena.references p.around x = .ok words := by
      intro x waits
      refine track.references_ok seeded (List.mem_append_right _ (List.mem_append_right _ ?_))
      have among : w ∈ p.workers.toList := Array.mem_toList_iff.2 (Array.mem_of_getElem? found)
      exact List.mem_flatMap.2 ⟨w, among, List.mem_append_left _ waits⟩
    obtain ⟨t, b, goes⟩ := Scanner.advance_ok known
    rw [goes] at advanced
    nomatch advanced
  | overflows e stage stuck => nomatch stuck
  | @counts outcome stage =>
    cases outcome with
    | none => exact healthy_put healthy found rfl rfl rfl id
    | some e =>
      rw [stage] at well
      exact absurd trivial well
  | cancels stage | records stage =>
    rw [stage] at well
    exact absurd trivial well
  | scans stage =>
    refine healthy_put healthy found rfl rfl rfl ?_
    rw [stage]
    exact id
  | receives | stops | resumes | dries | pauses | ends | refills | declines | seesLeader | doubts
  | seesNobody | seesWorker | offers | leaves =>
    exact healthy_put healthy found rfl rfl rfl id

theorem healthy_lead (healthy : ¬ p.Doomed) (workers : q.workers = p.workers)
    (failure : q.failure = p.failure) (well : ¬ q.leader.HasFailed) : ¬ q.Doomed := by
  rintro (h | h | h)
  · exact healthy (.inl (failure ▸ h))
  · exact well h
  · rw [workers] at h
    exact healthy (.inr (.inr h))

theorem Follows.not_hasFailed {a b : LeaderStage} (follows : p.Follows a b) (well : ¬ a.HasFailed) :
    ¬ b.HasFailed := by
  cases follows with
  | @settles result | @waits result | @stirs result =>
    cases result with
    | error e => exact absurd trivial well
    | ok n => exact id
  | _ => exact id

theorem healthy_leaderTurn (order : p.Orderly) (healthy : ¬ p.Doomed) (track : p.OnTrack)
    (seeded : p.start.Seeded) (turn : p.LeaderTurn true q) : ¬ q.Doomed := by
  have well : ¬ p.leader.HasFailed := fun failed => healthy (.inr (.inl failed))
  have nobody_lost : ∀ {i : Nat}, p.lost? ≠ some i := by
    intro i lost
    obtain ⟨j, w, found, stage⟩ := hasLost_of_lost?_eq_some lost
    exact healthy (.inr (.inr ⟨j, w, found, by rw [stage]; trivial⟩))
  cases turn with
  | follows here follows =>
    exact healthy_lead healthy rfl rfl (follows.not_hasFailed (here ▸ well))
  | @sends i count rest here =>
    obtain ⟨w, found, idle⟩ := (order.sending _ _ here).2 i List.mem_cons_self
    rw [send_eq found idle]
    refine healthy_lead (healthy_put (r := { p with
      scanner := { p.scanner with pending := (p.scanner.pending.takeOldest count).2 }
      active := Word.withBit p.active i }) healthy found rfl rfl rfl ?_) rfl rfl id
    rw [idle.1]
    exact id
  | fails here advanced =>
    obtain ⟨t, b, goes⟩ := Scanner.advance_ok fun x waits =>
      track.references_ok seeded (List.mem_append_left _ waits)
    rw [goes] at advanced
    nomatch advanced
  | overflows here stuck => nomatch stuck
  | misses here lost | despairs here lost => exact absurd lost nobody_lost
  | @ends result here =>
    cases result with
    | error e =>
      rw [here] at well
      exact absurd trivial well
    | ok n => exact healthy_lead healthy rfl rfl id
  | returnsError here =>
    rw [here] at well
    exact absurd trivial well
  | returnsFailure here failure => exact absurd (.inl (by rw [failure]; rfl)) healthy
  | @refills nobodyActive here =>
    refine healthy_lead healthy rfl rfl ?_
    cases nobodyActive <;> exact id
  | resumes | scans | returns => exact healthy_lead healthy rfl rfl id

variable {workers interval minDispatch : Nat}

theorem Undisturbed.healthy (few : workers ≤ maxMarkThreads)
    (run : Pool.Undisturbed workers interval minDispatch p) : p.start.Seeded ∧ ¬ p.Doomed := by
  induction run with
  | new =>
    refine ⟨⟨Arena.sound_new 4096 0, List.nodup_nil, by simp [Pool.new]⟩, ?_⟩
    rintro (h | h | ⟨i, w, found, h⟩)
    · simp [Pool.new] at h
    · exact h
    · have idle := (orderly_new few interval minDispatch).quiet trivial i w found
      rw [idle.1] at h
      exact h
  | begin before seeded taken ih =>
    unfold Pool.begin at taken
    split at taken
    · obtain rfl := Option.some.inj taken
      exact ⟨seeded, healthy_lead ih.2 rfl rfl id⟩
    · cases taken
  | leader before taken ih =>
    obtain ⟨seeded, healthy⟩ := ih
    have turn := leaderTurn_of_leaderStep taken
    have order := orderly_of_reachable few before.reachable
    have track := (doomed_or_onTrack few before.reachable seeded).resolve_left healthy
    refine ⟨?_, healthy_leaderTurn order healthy track seeded turn⟩
    rw [(continues_leaderTurn turn).start]
    exact seeded
  | worker before taken ih =>
    obtain ⟨seeded, healthy⟩ := ih
    obtain ⟨w, found, turn⟩ := workerTurn_of_workerStep taken
    have track := (doomed_or_onTrack few before.reachable seeded).resolve_left healthy
    refine ⟨?_, healthy_workerTurn healthy track seeded found turn⟩
    rw [(continues_workerTurn turn).start]
    exact seeded

/-- In an undisturbed pool no worker is lost, nobody meets a fault, and no run returns an error. -/
theorem Undisturbed.faultless (few : workers ≤ maxMarkThreads)
    (run : Pool.Undisturbed workers interval minDispatch p) :
    p.lost? = none ∧ p.faults = [] ∧
      ∀ result, p.leader = .resting (some result) → ∃ n, result = .ok n := by
  obtain ⟨seeded, healthy⟩ := run.healthy few
  have track := (doomed_or_onTrack few run.reachable seeded).resolve_left healthy
  refine ⟨?_, track.faultless, fun result returned => ?_⟩
  · cases lost : p.lost? with
    | none => rfl
    | some i =>
      obtain ⟨j, w, found, stage⟩ := hasLost_of_lost?_eq_some lost
      exact absurd (.inr (.inr ⟨j, w, found, by rw [stage]; trivial⟩)) healthy
  · cases result with
    | ok n => exact ⟨n, rfl⟩
    | error e => exact absurd (.inr (.inl (by rw [returned]; trivial))) healthy

end Pool

/-- What emptying a mark stack may come to when nothing disturbs it: the collector has scanned all
blocks alone, or as the leader of an undisturbed pool. -/
inductive Marker.EmptiedUndisturbed (ctx : MarkContext) (m : Marker) :
    Except Error Nat × Marker → Prop
  | alone : Marker.EmptiedUndisturbed ctx m (m.drainAll ctx)
  | together {workers interval minDispatch : Nat} {p : Pool} {out : Except Error Nat × Marker}
      (few : workers ≤ maxMarkThreads)
      (run : Pool.Undisturbed workers interval minDispatch p) (start : p.start = m)
      (around : p.around = ctx.toSurroundings) (returned : p.returned? = some out) :
      Marker.EmptiedUndisturbed ctx m out

theorem Marker.ok_of_emptiedUndisturbed {ctx : MarkContext} {m : Marker} (seeded : m.Seeded)
    {out : Except Error Nat × Marker} (emptied : m.EmptiedUndisturbed ctx out) :
    ∃ n, out.1 = .ok n := by
  cases emptied with
  | alone =>
    obtain ⟨m', scans, run, -⟩ := drainAll_ok seeded ctx
    exact ⟨scans.length, congrArg Prod.fst run⟩
  | together few run start around returned =>
    obtain ⟨result, stage, rfl⟩ := Pool.returned?_eq_some returned
    exact (run.faultless few).2.2 result stage

end MarkSweep
