import MarkSweep.Proofs.LockWaits

set_option autoImplicit false

namespace MarkSweep

namespace Handshake

variable {s t : Handshake} {c i : ThreadId} {r : RecordId}

/-- A thread that stops the world has parked its record, if it has one, and has brought about no
other scope of it. -/
theorem isRaised_of_isStopping {p : Point} (stopping : p.isStopping = true) :
    p.isRaised = true ∧ p.isLowered = false ∧ p.task? = none ∧
      (p.record? = none → p.isUnnamed = true) := by
  cases p with
  | requesting | surveying | retrying | stopped =>
    exact ⟨rfl, rfl, rfl, Option.isNone_iff_eq_none.2⟩
  | _ => nomatch stopping

theorem exists_record_of_isStopping (enlisted : s.Enlisted)
    (stopping : (s.points c).isStopping = true) (entry : (c, r) ∈ s.threads.registered) :
    ∃ r', (s.points c).record? = some r' := by
  refine Option.ne_none_iff_exists'.1 fun unnamed => ?_
  have unknown := enlisted.unnamed c ((isRaised_of_isStopping stopping).2.2.2 unnamed)
  nomatch unknown.symm.trans (enlisted.once c r entry)

/-- A registered thread that stops the world shows a depth, or it is busy with the record of a
handle that it has unregistered. Only the first happens if no thread uses such a handle; then the
counter shows the depth too, if it is below 2^32, and a thread never waits for itself. -/
theorem parked_of_isStopping {s : Handshake} {c : ThreadId} {r : RecordId}
    (reachable : Reachable anyCall s) (stopping : (s.points c).isStopping = true)
    (entry : (c, r) ∈ s.threads.registered) :
    (1 ≤ s.depth r ∨
      ∃ r', (s.points c).record? = some r' ∧ r' ≠ r ∧ 1 ≤ s.depth r' ∧ ¬ s.IsAttached r') ∧
    (Reachable attachedCall s →
      (1 ≤ s.depth r ∧ (s.depth r < UInt32.size → s.threads.counter r ≠ 0)) ∧
        ¬ s.WaitsFor c c) := by
  have ordered := reachable.orderly
  have enlisted := reachable.enlisted
  have known := enlisted.once c r entry
  obtain ⟨raised, level, task, -⟩ := isRaised_of_isStopping stopping
  obtain ⟨r', busy⟩ := exists_record_of_isStopping enlisted stopping entry
  have deep : 1 ≤ s.depth r' :=
    Nat.one_le_iff_ne_zero.2 (ordered.depth_of_raised rfl busy raised level)
  refine ⟨?_, fun attached => ?_⟩
  · by_cases same : r' = r
    · exact .inl (same ▸ deep)
    · refine .inr ⟨r', busy, same, deep, fun attached => ?_⟩
      obtain current | wants := enlisted.handles c r' (ordered.owner c r' busy) attached
      · exact same (Option.some.inj (current.symm.trans known))
      · nomatch task.symm.trans wants
  · have current := attached.current_of_attached.current? busy
    obtain rfl := Option.some.inj (current.symm.trans known)
    refine ⟨⟨deep, Threads.counter_ne_zero deep⟩, ?_⟩
    rintro ⟨-, -, r, again, shallow⟩
    obtain rfl := Option.some.inj ((enlisted.once c r again).symm.trans known)
    omega

def surveyingTurns : List (ThreadId × (Call ⊕ Addr)) :=
  (0, .inl .register) :: accesses 3 0 4096 ++ (0, .inl (.stopWorld .forever)) :: accesses 6 0 4096

theorem parked_of_isStopping_surveying : ∃ s, Reachable attachedCall s ∧
    s.points 0 = .surveying (some 0) .forever .releasing [0] ∧ (0, 0) ∈ s.threads.registered ∧
    1 ≤ s.depth 0 ∧ ¬ s.WaitsFor 0 0 := by
  obtain ⟨⟨s, h⟩, played, there, registered⟩ :
      ∃ now ∈ play attachedCall surveyingTurns ({}, {}),
        now.1.points 0 = .surveying (some 0) .forever .releasing [0] ∧
        now.1.threads.registered = [(0, 0)] := by decide +kernel
  have reachable : Reachable attachedCall s :=
    (traced_of_play played .start).reachable
  replace there : s.points 0 = .surveying (some 0) .forever .releasing [0] := there
  replace registered : s.threads.registered = [(0, 0)] := registered
  have entry : (0, 0) ∈ s.threads.registered := by simp [registered]
  obtain ⟨⟨deep, -⟩, free⟩ :=
    (parked_of_isStopping reachable.any (by rw [there]; rfl) entry).2 reachable
  exact ⟨s, reachable, there, entry, deep, free⟩

/-- Whether a collector without a deadline waits for a record of its own, which it is not busy
with. -/
structure IsStuck (s : Handshake) (c : ThreadId) (r : RecordId) : Prop where
  entry : (c, r) ∈ s.threads.registered
  shallow : s.depth r = 0
  looks : ∃ record next, record ≠ some r ∧
    (s.points c = .retrying record .forever next ∨
      ∃ unread, r ∈ unread ∧ s.points c = .surveying record .forever next unread)

namespace IsStuck

theorem apart (stuck : s.IsStuck c r) : (s.points c).record? ≠ some r ∧
    (s.points c).HoldsLock ∧ (s.points c).phase = .stopRequested ∧ s.points c ≠ .outside := by
  obtain ⟨record, next, other, here | ⟨unread, -, here⟩⟩ := stuck.looks
  · rw [here]
    exact ⟨other, trivial, rfl, nofun⟩
  · rw [here]
    exact ⟨other, trivial, rfl, nofun⟩

theorem waitsFor (stuck : s.IsStuck c r) (ordered : s.Orderly) : s.WaitsFor c c := by
  obtain ⟨-, holds, phase, -⟩ := stuck.apart
  have lock := (ordered.lock c).1 holds
  exact ⟨lock, (ordered.phase c lock).trans phase, r, stuck.entry, stuck.shallow⟩

theorem advance (stuck : s.IsStuck c r) {now : Snapshot} {choice : Bool}
    (taken : s.advance c now choice = some t) : t.IsStuck c r := by
  obtain ⟨entry, shallow, record, next, other, here | ⟨unread, mem, here⟩⟩ := stuck
  · simp only [Handshake.advance, here, reduceCtorEq, false_and, if_false] at taken
    obtain rfl := Option.some.inj taken
    refine ⟨entry, shallow, record, next, other, .inr ⟨_, ?_, points_goto _ _ _⟩⟩
    exact List.mem_map.2 ⟨_, entry, rfl⟩
  · cases unread with
    | nil => exact absurd mem List.not_mem_nil
    | cons r' unread =>
      simp only [Handshake.advance, here] at taken
      obtain rfl := Option.some.inj taken
      refine ⟨entry, shallow, record, next, other, ?_⟩
      split
      · exact .inl (points_goto _ _ _)
      · next deep =>
        refine .inr ⟨unread, (List.mem_cons.1 mem).resolve_left ?_, points_goto _ _ _⟩
        rintro rfl
        exact deep shallow

theorem turn_other (stuck : s.IsStuck c r) (ordered : s.Orderly) (turn : s.Turn i t)
    (other : i ≠ c) : t.IsStuck c r := by
  have free : ¬ (s.points i).HoldsLock := by
    rw [ordered.lock i, (ordered.lock c).1 stuck.apart.2.1]
    exact fun same => other (Option.some.inj same).symm
  have registered : t.threads.registered = s.threads.registered := by
    cases turn with
    | registers here | unregisters here =>
      rw [here] at free
      exact absurd trivial free
    | _ => rfl
  have owns := ordered.registered c r stuck.entry
  refine ⟨registered ▸ stuck.entry, ?_, ?_⟩
  · rw [turn.depth_untouched owns (ordered.apart owns other.symm)]
    exact stuck.shallow
  · rw [turn.points_other other.symm]
    exact stuck.looks

theorem leads {may : Handshake → ThreadId → Call → Prop} (stuck : s.IsStuck c r)
    (reachable : Reachable may s) (leads : s.Leads may t) :
    Reachable may t ∧ t.IsStuck c r := by
  induction leads with
  | refl => exact ⟨reachable, stuck⟩
  | call i call before allowed taken ih =>
    obtain ⟨reachable, stuck⟩ := ih
    refine ⟨.call i call reachable allowed taken, ?_⟩
    refine stuck.turn_other reachable.orderly (turn_of_call taken) ?_
    rintro rfl
    exact stuck.apart.2.2.2 (call_cases taken).1
  | advance i now choice before shown taken ih =>
    obtain ⟨reachable, stuck⟩ := ih
    refine ⟨.advance i now choice reachable shown taken, ?_⟩
    by_cases same : i = c
    · subst same
      exact stuck.advance taken
    · exact stuck.turn_other reachable.orderly (turn_of_advance shown taken) same

end IsStuck

/-- A thread registers, unregisters, registers again and allocates under its first handle when a
collection is due. -/
def oldHandleTurns : List (ThreadId × (Call ⊕ Addr)) :=
  (0, .inl .register) :: accesses 3 0 4096 ++
  (0, .inl (.unregister 0)) :: accesses 3 0 4096 ++
  (0, .inl .register) :: accesses 3 0 4096 ++
  (0, .inl (.allocateUnder 0)) :: accesses 6 0 4096

/-- A thread can stop the world while the record under which it is registered shows depth zero. It
waits for itself from then on, in every state that the threads can bring about. -/
theorem waits_for_itself_under_old_handle : ∃ s, Reachable anyCall s ∧
    (0, 1) ∈ s.threads.registered ∧ (s.points 0).isStopping = true ∧ s.depth 1 = 0 ∧
    ∀ t, s.Leads anyCall t → t.WaitsFor 0 0 := by
  obtain ⟨⟨s, h⟩, played, there, registered, shallow⟩ :
      ∃ now ∈ play anyCall oldHandleTurns ({}, {}),
        now.1.points 0 = .surveying (some 0) .forever (.holding (some 0) (.allocate 1)) [1] ∧
        now.1.threads.registered = [(0, 1)] ∧ now.1.depth 1 = 0 := by decide +kernel
  have reachable : Reachable anyCall s :=
    (traced_of_play played .start).reachable
  replace there : s.points 0 =
    .surveying (some 0) .forever (.holding (some 0) (.allocate 1)) [1] := there
  replace registered : s.threads.registered = [(0, 1)] := registered
  have entry : (0, 1) ∈ s.threads.registered := by simp [registered]
  have stuck : s.IsStuck 0 1 :=
    ⟨entry, shallow, _, _, by simp, .inr ⟨_, List.mem_singleton.2 rfl, there⟩⟩
  refine ⟨s, reachable, entry, by rw [there]; rfl, shallow, fun t leads => ?_⟩
  obtain ⟨reached, still⟩ := stuck.leads reachable leads
  exact still.waitsFor reached.orderly

end Handshake

end MarkSweep
