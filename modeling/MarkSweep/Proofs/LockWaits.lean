import MarkSweep.Proofs.HandshakeVisits

set_option autoImplicit false

namespace MarkSweep

namespace Handshake

variable {s t : Handshake} {i j : ThreadId} {r : RecordId}

theorem parkThen_ne_waiting {record : Option RecordId} {next : Point} (other : next ≠ .waiting r) :
    parkThen record next ≠ .waiting r := by
  cases record with
  | none => exact other
  | some r' => nofun

theorem unparkThen_ne_waiting {record : Option RecordId} {next : Point}
    (other : next ≠ .waiting r) : unparkThen record next ≠ .waiting r := by
  cases record with
  | none => exact other
  | some r' => nofun

/-- A thread waits for the lock inside a scope only when it has just gone back into it. -/
theorem Turn.returning_of_waiting (turn : s.Turn i t) (possible : (s.points i).IsPossible)
    (there : t.points i = .waiting r) : s.points i = .waiting r ∨ s.points i = .returning r := by
  cases turn with
  | rests => exact .inl there
  | returns here =>
    rw [points_goto] at there
    obtain rfl := Point.waiting.inj there
    exact .inr here
  | moves here moves =>
    rw [points_goto] at there
    cases moves with
    | meets | collects | stops => exact absurd there (parkThen_ne_waiting nofun)
    | enters | leaves | polls | asks | shows | nests | passes | strays | stays | finishes | sees
    | misses | retries => nomatch there
  | parks here | enters here =>
    rw [here] at possible
    simp only [points_noteEntered, points_goto] at there
    subst there
    nomatch possible
  | unparks here =>
    rw [here] at possible
    rw [points_goto] at there
    subst there
    nomatch possible
  | locks here free locks =>
    rw [points_goto] at there
    cases locks with
    | wakes => exact absurd there (unparkThen_ne_waiting nofun)
    | acquires | waits => nomatch there
  | unlocks here unlocks =>
    rw [points_goto] at there
    cases unlocks <;> nomatch there
  | resumes here idle resumes =>
    rw [here] at possible
    rw [points_goto] at there
    cases resumes with
    | gives | ends =>
      refine absurd there (unparkThen_ne_waiting ?_)
      cases possible <;> nofun
  | creates | detaches | heeds | captures | dips | leavesInner | leavesOuter | registers
  | unregisters | requests | achieves =>
    simp only [points_noteLeft, points_goto] at there
    nomatch there

theorem Reachable.depth_of_waiting {may : Handshake → ThreadId → Call → Prop}
    (reachable : Reachable may s) (there : s.points i = .waiting r) : s.depth r ≠ 0 := by
  have kept : ∀ {s t : Handshake} {j : ThreadId}, s.Orderly → s.Turn j t →
      (s.points i = .waiting r → s.depth r ≠ 0) → t.points i = .waiting r → t.depth r ≠ 0 := by
    intro s t j ordered turn before there
    by_cases same : i = j
    · subst same
      obtain here | here := turn.returning_of_waiting (ordered.possible i) there
      · have busy : (s.points i).record? = some r := by rw [here]; rfl
        rw [turn.depth (ordered.owner i r busy) busy, here]
        exact before here
      · have busy : (s.points i).record? = some r := by rw [here]; rfl
        rw [turn.depth (ordered.owner i r busy) busy, here]
        exact Nat.succ_ne_zero _
    · rw [turn.points_other same] at there
      have owns := ordered.owner i r (by rw [there]; rfl)
      rw [turn.depth_untouched owns (ordered.apart owns same)]
      exact before there
  induction reachable with
  | start => nomatch there
  | call j c before allowed taken ih => exact kept before.orderly (turn_of_call taken) ih there
  | advance j now choice before shown taken ih =>
    exact kept before.orderly (turn_of_advance shown taken) ih there

theorem Orderly.depth_of_raised (ordered : s.Orderly) {q : Point} (here : s.points i = q)
    (busy : q.record? = some r) (raised : q.isRaised = true) (level : q.isLowered = false) :
    s.depth r ≠ 0 := by
  subst here
  have balance := ordered.balance i r (ordered.owner i r busy)
  have up : (s.points i).raised r = 1 := if_pos ⟨busy, raised⟩
  have down : (s.points i).lowered r = 0 := if_neg (by simp [level])
  omega

/-- A registered thread that waits for the lock shows a depth, as long as no thread uses a handle
that was unregistered; so does its counter, if the depth is below 2^32. A collector that has the lock
waits for no thread that waits for it. -/
theorem parked_of_isBlocked {s : Handshake} (reachable : Reachable attachedCall s) :
    (∀ i r, (i, r) ∈ s.threads.registered → s.IsBlocked i →
      1 ≤ s.depth r ∧ (s.depth r < UInt32.size → s.threads.counter r ≠ 0)) ∧
      ∀ c i, s.WaitsFor c i → ¬ s.IsBlocked i := by
  have ordered := reachable.orderly
  have enlisted := reachable.enlisted
  have current := reachable.current_of_attached
  have parked : ∀ i r, (i, r) ∈ s.threads.registered → s.IsBlocked i → 1 ≤ s.depth r := by
    intro i r entry blocked
    have known := enlisted.once i r entry
    -- The record that the thread is busy with is the one under which it is registered.
    have mine : ∀ {r'}, (s.points i).record? = some r' → r' = r := fun busy =>
      Option.some.inj ((current.current? busy).symm.trans known)
    refine Nat.one_le_iff_ne_zero.2 ?_
    obtain ⟨-, ⟨r', there⟩ | ⟨record, task, there⟩⟩ := blocked
    · obtain rfl := mine (by rw [there]; rfl)
      exact reachable.depth_of_waiting there
    · cases record with
      | none =>
        have unknown := enlisted.unnamed i (by rw [there]; rfl)
        nomatch unknown.symm.trans known
      | some r' =>
        obtain rfl := mine (by rw [there]; rfl)
        exact ordered.depth_of_raised there rfl rfl rfl
  refine ⟨fun i r entry blocked => ?_, fun c i waits blocked => ?_⟩
  · have deep := parked i r entry blocked
    exact ⟨deep, Threads.counter_ne_zero deep⟩
  · obtain ⟨-, -, r, entry, shallow⟩ := waits
    have deep := parked i r entry blocked
    omega

/-- Three threads register. One stops the world and waits for another, while the third waits for the
lock. -/
def contendedTurns : List (ThreadId × (Call ⊕ Addr)) :=
  (0, .inl .register) :: accesses 3 0 4096 ++
  (1, .inl .register) :: accesses 3 1 4096 ++
  (2, .inl .register) :: accesses 3 2 4096 ++
  (0, .inl (.stopWorld .forever)) :: accesses 6 0 4096 ++
  (2, .inl .allocate) :: accesses 4 2 4096

theorem parked_of_isBlocked_contended : ∃ s, Reachable attachedCall s ∧ s.WaitsFor 0 1 ∧
    s.IsBlocked 2 ∧ (2, 2) ∈ s.threads.registered ∧ 1 ≤ s.depth 2 ∧ ¬ s.IsBlocked 1 := by
  obtain ⟨⟨s, h⟩, played, lock, phase, registered, shallow, there⟩ :
      ∃ now ∈ play attachedCall contendedTurns ({}, {}), now.1.lock = some 0 ∧
        now.1.safepoint.phase = .stopRequested ∧
        now.1.threads.registered = [(0, 0), (1, 1), (2, 2)] ∧ now.1.depth 1 = 0 ∧
        now.1.points 2 = .blocked (some 2) (.allocate 2) := by decide +kernel
  have reachable : Reachable attachedCall s :=
    (traced_of_play played .start).reachable
  replace registered : s.threads.registered = [(0, 0), (1, 1), (2, 2)] := registered
  have waits : s.WaitsFor 0 1 := ⟨lock, phase, 1, by simp [registered], shallow⟩
  have blocked : s.IsBlocked 2 := ⟨Option.isSome_of_eq_some lock, .inr ⟨_, _, there⟩⟩
  have entry : (2, 2) ∈ s.threads.registered := by simp [registered]
  obtain ⟨parked, free⟩ := parked_of_isBlocked reachable
  exact ⟨s, reachable, waits, blocked, entry, (parked 2 2 entry blocked).1, free 0 1 waits⟩

end Handshake

end MarkSweep
