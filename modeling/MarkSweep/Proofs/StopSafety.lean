import MarkSweep.Proofs.HandshakeInvariant

set_option autoImplicit false

/-!
# Stopping the world is safe

While the world is stopped, no registered thread runs code of its own and none writes a snapshot
that the collector reads. A registered thread shows depth zero only in the two accesses between
leaving its outermost scope and going back into it.
-/

namespace MarkSweep

namespace Handshake

/-- Whether a thread runs code that may touch the heap: it has entered no scope of its record that
it has not left, and has not parked the record for a call. -/
def Runs (s : Handshake) (i : ThreadId) (r : RecordId) : Prop :=
  s.scopes r = 0 ∧ (s.points i).raised r = 0

section Registration

variable {s t : Handshake} {i j : ThreadId} {r : RecordId}

theorem current?_insert {t : Threads} {id : RecordId} (known : t.current? j = some r) :
    ((t.insert id).toOption.getD t).current? j = some r := by
  unfold Threads.insert
  cases found : t.record? id with
  | none => exact known
  | some x =>
    cases taken : t.current? x.thread with
    | some other =>
      simp only [taken]
      exact known
    | none =>
      simp only [taken]
      exact (List.lookup_append ..).trans (by rw [show t.registered.lookup j = _ from known]; rfl)

theorem lookup_filter {entries : List (ThreadId × RecordId)} (other : j ≠ i) :
    (entries.filter fun e => e.1 ≠ i).lookup j = entries.lookup j := by
  induction entries with
  | nil => rfl
  | cons e rest ih =>
    obtain ⟨k, r⟩ := e
    by_cases mine : k = i
    · subst mine
      have missed : (j == k) = false := beq_false_of_ne other
      simp [List.lookup_cons, missed, ← ih]
    · simp [List.lookup_cons, mine, ← ih]

theorem current?_remove {t : Threads} (other : j ≠ i) :
    (((t.remove i).toOption.map Prod.snd).getD t).current? j = t.current? j := by
  unfold Threads.remove
  cases found : t.current? i with
  | none => rfl
  | some id => exact lookup_filter other

theorem Turn.current? (turn : s.Turn i t) (known : s.threads.current? j = some r)
    (busy : (t.points j).record? = some r) : t.threads.current? j = some r := by
  cases turn with
  | registers here => exact current?_insert known
  | unregisters here =>
    have other : j ≠ i := by
      rintro rfl
      rw [points_goto] at busy
      nomatch busy
    exact (current?_remove other).trans known
  | _ => exact known

theorem record?_of_call {c : Call} (taken : s.call i c = some t)
    (busy : (t.points i).record? = some r) :
    c.handle? = some r ∨ s.threads.current? i = some r := by
  obtain ⟨here, -, begins⟩ := call_cases taken
  cases begins with
  | known | gone =>
    rw [here] at busy
    nomatch busy
  | registers =>
    rw [points_goto] at busy
    nomatch busy
  | unregisters | enters | leaves | polls | allocates =>
    rw [points_goto] at busy
    exact .inl busy
  | asks =>
    rw [points_goto] at busy
    exact .inr busy

/-- A thread that uses no handle after its record was unregistered is busy with the record under
which it is registered. -/
theorem Reachable.current? (reachable : Reachable currentCall s)
    (busy : (s.points i).record? = some r) : s.threads.current? i = some r := by
  induction reachable with
  | start => nomatch busy
  | @call s t j c before allowed taken known =>
    have turn := turn_of_call taken
    by_cases same : i = j
    · subst same
      obtain handle | current := record?_of_call taken busy
      · exact turn.current? (allowed r handle) busy
      · exact turn.current? current busy
    · exact turn.current? (known (turn.points_other same ▸ busy)) busy
  | @advance s t j now choice before shown taken known =>
    have turn := turn_of_advance shown taken
    refine turn.current? (known ?_) busy
    by_cases same : i = j
    · subst same
      refine (turn.record? (before.orderly.possible i) busy).resolve_right fun ⟨here, _⟩ => ?_
      simp [Handshake.advance, here] at taken
    · exact turn.points_other same ▸ busy

end Registration

section Stopped

variable {s : Handshake} {i : ThreadId} {r : RecordId}

namespace Orderly

theorem exists_collector (ordered : s.Orderly) (stopped : s.safepoint.phase = .worldStopped) :
    ∃ c record next, s.lock = some c ∧ s.points c = .stopped record next := by
  cases lock : s.lock with
  | none =>
    rw [ordered.idle lock] at stopped
    nomatch stopped
  | some c =>
    rw [ordered.phase c lock] at stopped
    cases here : s.points c with
    | stopped record next => exact ⟨c, record, next, rfl, here⟩
    | _ =>
      rw [here] at stopped
      nomatch stopped

/-- Every registered thread is parked while the world is stopped, or out of its scope for a
moment. -/
theorem stays (ordered : s.Orderly) (stopped : s.safepoint.phase = .worldStopped)
    (entry : (i, r) ∈ s.threads.registered) : s.Stays i r := by
  obtain ⟨c, record, next, -, here⟩ := ordered.exists_collector stopped
  have left : (s.points c).unread? = some [] := by
    rw [here]
    rfl
  exact (ordered.surveyed c [] left i r entry).resolve_left List.not_mem_nil

theorem isCaptured_of_stays (ordered : s.Orderly) (owns : s.Owns i r) (stays : s.Stays i r) :
    (s.snapshot r).isCaptured = true := by
  refine ordered.captured i r owns (stays.imp_right fun out => ?_)
  obtain there | there := out <;> rw [there] <;> exact ⟨rfl, rfl⟩

theorem not_runs_of_stays (ordered : s.Orderly) (owns : s.Owns i r) (stays : s.Stays i r) :
    ¬ s.Runs i r := fun ⟨outside, level⟩ => by
  have balance := ordered.balance i r owns
  rw [outside, level] at balance
  obtain deep | there | there := stays
  · omega
  · simp [there, Point.lowered, Point.record?, Point.isLowered] at balance
  · simp [there, Point.lowered, Point.record?, Point.isLowered] at balance

theorem not_capturing_of_stays (ordered : s.Orderly) (owns : s.Owns i r) (stays : s.Stays i r)
    (j : ThreadId) (next : Point) : s.points j ≠ .capturing r next := fun there => by
  have writer := ordered.owner j r (by rw [there]; rfl)
  obtain rfl := owns.unique writer
  obtain deep | out | out := stays
  · exact deep (ordered.shallow _ r next there)
  · nomatch there.symm.trans out
  · nomatch there.symm.trans out

end Orderly

theorem Orderly.isCaptured (ordered : s.Orderly) (deep : s.depth r ≠ 0) :
    (s.snapshot r).isCaptured = true := by
  cases found : s.threads.record? r with
  | none => simp [depth, Threads.depth, found] at deep
  | some x =>
    have owns : s.Owns x.thread r := Option.map_eq_some_iff.2 ⟨x, found, rfl⟩
    exact ordered.captured x.thread r owns (.inl deep)

end Stopped

/-- In every state that threads can bring about, a record with a depth has a snapshot. While the
world is stopped one thread has the lock; no registered thread runs code of its own; one whose depth
is zero, or whose counter is while the depth is below 2^32, is another thread, between the two
accesses that take it out of its scope and back; and all snapshots that the collector reads were
taken and are not being written. No snapshot at all is being written if no thread uses the handle of
a record that is not registered any more. -/
theorem safe_of_worldStopped {s : Handshake} (reachable : Reachable anyCall s) :
    (∀ r, s.depth r ≠ 0 → (s.snapshot r).isCaptured = true) ∧
    (s.safepoint.phase = .worldStopped →
      (∃ c record next, s.lock = some c ∧ s.points c = .stopped record next ∧
        ∀ i r, (i, r) ∈ s.threads.registered →
          ¬ s.Runs i r ∧
          (s.depth r = 0 ∨ s.depth r < UInt32.size ∧ s.threads.counter r = 0 →
            i ≠ c ∧ (s.points i = .checking r ∨ s.points i = .returning r)) ∧
          (s.snapshot r).isCaptured = true ∧
          ∀ j next, s.points j ≠ .capturing r next) ∧
      (∀ x ∈ s.threads.active, x.snapshot.isCaptured = true) ∧
      (Reachable currentCall s → ∀ j r next, s.points j ≠ .capturing r next)) := by
  have ordered := reachable.orderly
  refine ⟨fun r => ordered.isCaptured, fun stopped => ?_⟩
  have stays : ∀ {i r}, (i, r) ∈ s.threads.registered → s.Stays i r := ordered.stays stopped
  have owns : ∀ {i r}, (i, r) ∈ s.threads.registered → s.Owns i r := ordered.registered _ _
  refine ⟨?_, ?_, ?_⟩
  · obtain ⟨c, record, next, lock, here⟩ := ordered.exists_collector stopped
    refine ⟨c, record, next, lock, here, fun i r entry => ⟨?_, ?_, ?_, ?_⟩⟩
    · exact ordered.not_runs_of_stays (owns entry) (stays entry)
    · intro shown
      have zero : s.depth r = 0 :=
        shown.elim id fun ⟨fits, counter⟩ => (Threads.counter_eq_zero_iff fits).1 counter
      have out := (stays entry).resolve_left (not_not_intro zero)
      refine ⟨?_, out⟩
      rintro rfl
      rw [here] at out
      obtain out | out := out <;> nomatch out
    · exact ordered.isCaptured_of_stays (owns entry) (stays entry)
    · exact ordered.not_capturing_of_stays (owns entry) (stays entry)
  · intro x active
    obtain ⟨⟨i, r⟩, entry, found⟩ := List.mem_filterMap.1 active
    have captured := ordered.isCaptured_of_stays (owns entry) (stays entry)
    rw [snapshot, found] at captured
    exact captured
  · -- A thread that writes a snapshot is busy with that record, so it is registered under it.
    intro current j r next there
    have entry := mem_registered_of_current? (current.current? (by rw [there]; rfl))
    exact ordered.not_capturing_of_stays (owns entry) (stays entry) j next there

def afterTurns (turns : List (ThreadId × Option Call)) (s : Handshake) : Option Handshake :=
  turns.foldlM (fun s turn => match turn with
    | (i, some c) => if ∀ id ∈ c.handle?, s.threads.current? i = some id then s.call i c else none
    | (i, none) => s.advance i { sp := 4096 } true) s

theorem Reachable.afterTurns {turns : List (ThreadId × Option Call)} {s t : Handshake}
    (reachable : Reachable currentCall s) (taken : s.afterTurns turns = some t) :
    Reachable currentCall t := by
  induction turns generalizing s with
  | nil =>
    obtain rfl := Option.some.inj taken
    exact reachable
  | cons turn turns ih =>
    obtain ⟨middle, first, rest⟩ := Option.bind_eq_some_iff.1 (List.foldlM_cons.symm.trans taken)
    refine ih ?_ rest
    obtain ⟨i, c | _⟩ := turn
    · exact .advance i _ _ reachable rfl first
    · simp only at first
      split at first
      · next allowed => exact .call i _ reachable allowed first
      · nomatch first

theorem Reachable.any {may : Handshake → ThreadId → Call → Prop} {s : Handshake}
    (reachable : Reachable may s) : Reachable anyCall s := by
  induction reachable with
  | start => exact .start
  | call i c before allowed taken ih => exact .call i c ih trivial taken
  | advance i now choice before shown taken ih => exact .advance i now choice ih shown taken

/-- Two threads register. One enters a scope, the other stops the world, and the first begins to
leave its scope. -/
def sampleTurns : List (ThreadId × Option Call) :=
  (0, some .register) :: List.replicate 3 (0, none) ++
  (1, some .register) :: List.replicate 3 (1, none) ++
  (1, some (.enter 1)) :: List.replicate 3 (1, none) ++
  (0, some (.stopWorld .forever)) :: List.replicate 9 (0, none) ++
  [(1, some (.leave 1)), (1, none)]

theorem safe_of_worldStopped_sample : ∃ s, Reachable currentCall s ∧
    s.safepoint.phase = .worldStopped ∧ (1, 1) ∈ s.threads.registered ∧ s.depth 1 = 0 ∧
    ¬ s.Runs 1 1 ∧ (s.points 1 = .checking 1 ∨ s.points 1 = .returning 1) ∧
    (s.snapshot 1).isCaptured = true ∧ ∀ j r next, s.points j ≠ .capturing r next := by
  obtain ⟨s, taken, stopped, entry, zero⟩ : ∃ s, afterTurns sampleTurns {} = some s ∧
      s.safepoint.phase = .worldStopped ∧ (1, 1) ∈ s.threads.registered ∧ s.depth 1 = 0 := by
    have seen : (afterTurns sampleTurns {}).map (fun s =>
        (s.safepoint.phase, s.threads.registered, s.depth 1)) =
          some (.worldStopped, [(0, 0), (1, 1)], 0) := by decide +kernel
    obtain ⟨s, taken, seen⟩ := Option.map_eq_some_iff.1 seen
    simp only [Prod.mk.injEq] at seen
    obtain ⟨stopped, registered, zero⟩ := seen
    exact ⟨s, taken, stopped, by simp [registered], zero⟩
  have reachable : Reachable currentCall s := Reachable.start.afterTurns taken
  obtain ⟨⟨c, record, next, -, -, safe⟩, -, quiet⟩ := (safe_of_worldStopped reachable.any).2 stopped
  obtain ⟨idle, shows, captured, -⟩ := safe 1 1 entry
  exact ⟨s, reachable, stopped, entry, zero, idle, (shows (.inl zero)).2, captured, quiet reachable⟩

end Handshake

end MarkSweep
