import MarkSweep.Proofs.HandshakeDepths

set_option autoImplicit false

namespace MarkSweep

namespace Handshake

structure Orderly (s : Handshake) : Prop where
  possible : ∀ i, (s.points i).IsPossible
  owner : ∀ i r, (s.points i).record? = some r → s.Owns i r
  registered : ∀ i r, (i, r) ∈ s.threads.registered → s.Owns i r
  lock : ∀ i, (s.points i).HoldsLock ↔ s.lock = some i
  phase : ∀ i, s.lock = some i → s.safepoint.phase = (s.points i).phase
  idle : s.lock = none → s.safepoint.phase = .idle
  unborn : ∀ r, s.threads.record? r = none → s.scopes r = 0
  balance : ∀ i r, s.Owns i r →
    s.depth r + (s.points i).lowered r = s.scopes r + (s.points i).raised r
  captured : ∀ i r, s.Owns i r →
    s.depth r ≠ 0 ∨ (s.points i).record? = some r ∧ (s.points i).hasCaptured = true →
      (s.snapshot r).isCaptured = true
  shallow : ∀ i r next, s.points i = .capturing r next → s.depth r = 0
  surveyed : ∀ c unread, (s.points c).unread? = some unread →
    ∀ i r, (i, r) ∈ s.threads.registered → r ∈ unread ∨ s.Stays i r

namespace Orderly

variable {s t : Handshake} {i j : ThreadId} {r : RecordId}

theorem apart (ordered : s.Orderly) (owns : s.Owns j r) (other : j ≠ i) :
    (s.points i).record? ≠ some r := fun busy =>
  other (owns.unique (ordered.owner i r busy))

theorem possible_of_turn (ordered : s.Orderly) (turn : s.Turn i t) (j : ThreadId) :
    (t.points j).IsPossible := by
  by_cases same : j = i
  · subst same
    exact turn.isPossible (ordered.possible j)
  · rw [turn.points_other same]
    exact ordered.possible j

theorem owner_of_turn (ordered : s.Orderly) (turn : s.Turn i t)
    (busy : (t.points j).record? = some r) : t.Owns j r := by
  by_cases same : j = i
  · subst same
    obtain before | ⟨-, mine | current⟩ := turn.record? (ordered.possible j) busy
    · exact turn.owns (ordered.owner j r before)
    · exact turn.owns mine
    · exact turn.owns (ordered.registered j r (mem_registered_of_current? current))
  · rw [turn.points_other same] at busy
    exact turn.owns (ordered.owner j r busy)

theorem registered_of_turn (ordered : s.Orderly) (turn : s.Turn i t)
    (entry : (j, r) ∈ t.threads.registered) : t.Owns j r := by
  obtain before | ⟨owns, -, -⟩ := turn.registered entry
  · exact turn.owns (ordered.registered j r before)
  · exact turn.owns owns

theorem lock_of_turn (ordered : s.Orderly) (turn : s.Turn i t) (j : ThreadId) :
    (t.points j).HoldsLock ↔ t.lock = some j := by
  obtain ⟨lock, holds⟩ | ⟨free, lock, holds⟩ | ⟨held, lock, holds⟩ :=
    turn.lock (ordered.possible i)
  · rw [lock, ← ordered.lock j]
    by_cases same : j = i
    · rw [same, holds]
    · rw [turn.points_other same]
  · rw [lock]
    by_cases same : j = i
    · rw [same]
      exact iff_of_true holds rfl
    · rw [turn.points_other same, ordered.lock j, free]
      exact iff_of_false nofun fun taken => same (Option.some.inj taken).symm
  · rw [lock]
    refine iff_of_false ?_ nofun
    by_cases same : j = i
    · rw [same]
      exact holds
    · rw [turn.points_other same, ordered.lock j, (ordered.lock i).1 held]
      exact fun taken => same (Option.some.inj taken).symm

theorem phase_of_turn (ordered : s.Orderly) (turn : s.Turn i t) (held : t.lock = some j) :
    t.safepoint.phase = (t.points j).phase := by
  have possible := ordered.possible i
  have holds := (ordered.lock_of_turn turn j).2 held
  obtain ⟨phase, point⟩ | ⟨before, phase⟩ := turn.phase possible
  · rw [phase]
    by_cases same : j = i
    · subst same
      rw [point]
      by_cases before : (s.points j).HoldsLock
      · exact ordered.phase j ((ordered.lock j).1 before)
      · rw [phase_of_not_holdsLock before]
        obtain ⟨-, keeps⟩ | ⟨free, -, -⟩ | ⟨-, -, lost⟩ := turn.lock possible
        · exact absurd (keeps.1 holds) before
        · exact ordered.idle free
        · exact absurd holds lost
    · rw [turn.points_other same] at holds ⊢
      exact ordered.phase j ((ordered.lock j).1 holds)
  · obtain rfl : i = j := by
      by_contra other
      rw [turn.points_other (Ne.symm other), ordered.lock j, (ordered.lock i).1 before] at holds
      exact other (Option.some.inj holds)
    exact phase

theorem idle_of_turn (ordered : s.Orderly) (turn : s.Turn i t) (free : t.lock = none) :
    t.safepoint.phase = .idle := by
  have possible := ordered.possible i
  have holds : ¬ (t.points i).HoldsLock := by
    rw [ordered.lock_of_turn turn i, free]
    nofun
  obtain ⟨phase, point⟩ | ⟨-, phase⟩ := turn.phase possible
  · rw [phase]
    obtain ⟨lock, -⟩ | ⟨-, taken, -⟩ | ⟨before, -, -⟩ := turn.lock possible
    · exact ordered.idle (lock ▸ free)
    · rw [taken] at free
      nomatch free
    · rw [ordered.phase i ((ordered.lock i).1 before), ← point]
      exact phase_of_not_holdsLock holds
  · rw [phase]
    exact phase_of_not_holdsLock holds

theorem unborn_of_turn (ordered : s.Orderly) (turn : s.Turn i t)
    (none : t.threads.record? r = none) : t.scopes r = 0 := by
  have unowned : ∀ {j}, ¬ s.Owns j r := fun owns => by
    obtain ⟨x, found, -⟩ := exists_record (turn.owns owns)
    rw [none] at found
    nomatch found
  rw [turn.scopes_untouched fun busy => unowned (ordered.owner i r busy)]
  refine ordered.unborn r ?_
  cases found : s.threads.record? r with
  | none => rfl
  | some x => exact absurd (Option.map_eq_some_iff.2 ⟨x, found, rfl⟩) unowned

theorem balance_of_turn (ordered : s.Orderly) (turn : s.Turn i t) (owns : t.Owns j r) :
    t.depth r + (t.points j).lowered r = t.scopes r + (t.points j).raised r := by
  have possible := ordered.possible i
  obtain owns | ⟨new, depth, scopes, idle⟩ := turn.owns_before owns
  · by_cases busy : (s.points i).record? = some r
    · obtain rfl := (ordered.owner i r busy).unique owns
      exact turn.balance possible owns (ordered.balance i r owns) busy
    · have before := ordered.balance j r owns
      rw [turn.depth_untouched owns busy, turn.scopes_untouched busy]
      by_cases same : j = i
      · subst same
        rw [(raised_of_ne busy).1, (raised_of_ne busy).2] at before
        have level : (t.points j).raised r = 0 ∧ (t.points j).lowered r = 0 := by
          by_cases turned : (t.points j).record? = some r
          · obtain still | ⟨here, -⟩ := turn.record? possible turned
            · exact absurd still busy
            · exact raised_of_level (turn.begins here).1 (turn.begins here).2.1
          · exact raised_of_ne turned
        rw [level.1, level.2]
        exact before
      · rw [turn.points_other same]
        exact before
  · rw [depth, scopes, ordered.unborn r new]
    have idle := raised_of_ne (r := r) (by rw [idle]; nofun)
    rw [idle.1, idle.2]

theorem captured_of_turn (ordered : s.Orderly) (turn : s.Turn i t) (owns : t.Owns j r)
    (shown : t.depth r ≠ 0 ∨ (t.points j).record? = some r ∧ (t.points j).hasCaptured = true) :
    (t.snapshot r).isCaptured = true := by
  have possible := ordered.possible i
  obtain owns | ⟨-, depth, -, idle⟩ := turn.owns_before owns
  · by_cases busy : (s.points i).record? = some r
    · obtain rfl := (ordered.owner i r busy).unique owns
      obtain ⟨same, past⟩ | ⟨-, new⟩ := turn.snapshot owns busy
      · rw [same]
        refine ordered.captured i r owns ?_
        obtain deep | ⟨-, shown⟩ := shown
        · rw [turn.depth owns busy] at deep
          exact (newDepth_ne_zero deep).imp_right fun before => ⟨busy, before⟩
        · obtain deep | before | ⟨next, there⟩ := turn.hasCaptured possible busy shown
          · exact .inl deep
          · exact .inr ⟨busy, before⟩
          · exact absurd there (past next)
      · exact new
    · rw [turn.snapshot_untouched owns busy]
      refine ordered.captured j r owns ?_
      rw [turn.depth_untouched owns busy] at shown
      refine shown.imp_right fun ⟨turned, shown⟩ => ?_
      by_cases same : j = i
      · subst same
        obtain still | ⟨here, -⟩ := turn.record? possible turned
        · exact absurd still busy
        · rw [(turn.begins here).2.2] at shown
          nomatch shown
      · rw [turn.points_other same] at turned shown
        exact ⟨turned, shown⟩
  · obtain deep | ⟨busy, -⟩ := shown
    · exact absurd depth deep
    · rw [idle] at busy
      nomatch busy

theorem shallow_of_turn (ordered : s.Orderly) (turn : s.Turn i t) {next : Point}
    (there : t.points j = .capturing r next) : t.depth r = 0 := by
  by_cases same : j = i
  · subst same
    exact turn.capturing (ordered.possible j) there
  · rw [turn.points_other same] at there
    have owns := ordered.owner j r (by rw [there]; rfl)
    rw [turn.depth_untouched owns (ordered.apart owns same)]
    exact ordered.shallow j r next there

theorem surveyed_of_turn (ordered : s.Orderly) (turn : s.Turn i t) {c : ThreadId}
    {unread : List RecordId} (left : (t.points c).unread? = some unread)
    (entry : (j, r) ∈ t.threads.registered) : r ∈ unread ∨ t.Stays j r := by
  have possible := ordered.possible i
  by_cases mine : c = i
  · -- The collector looks at one more record, or begins again with all of them.
    subst mine
    obtain ⟨threads, all | before | ⟨r', deep, before⟩⟩ := turn.unread possible left
    · rw [threads] at entry
      rw [all]
      exact .inl (List.mem_map.2 ⟨_, entry, rfl⟩)
    · exact (ordered.surveyed c _ before j r (threads ▸ entry)).imp_right
        (turn.stays_of_unread threads before)
    · obtain next | stays := ordered.surveyed c _ before j r (threads ▸ entry)
      · obtain rfl | next := List.mem_cons.1 next
        · exact .inr (turn.stays_of_unread threads before (.inl deep))
        · exact .inl next
      · exact .inr (turn.stays_of_unread threads before stays)
  · -- Another thread moves. The collector has the lock, so this thread neither changes what is
    -- registered nor leaves its outermost scope.
    rw [turn.points_other mine] at left
    have held : (s.points c).HoldsLock ∧ (s.points c).phase ≠ .idle := by
      cases point : s.points c with
      | surveying | stopped => exact ⟨trivial, nofun⟩
      | _ => simp [point, Point.unread?] at left
    have lock := (ordered.lock c).1 held.1
    have free : ¬ (s.points i).HoldsLock := by
      rw [ordered.lock i, lock]
      exact fun same => mine (Option.some.inj same)
    have asked : s.safepoint.phase ≠ .idle := by
      rw [ordered.phase c lock]
      exact held.2
    have entry := (turn.registered entry).resolve_right fun new => free new.2.1
    have owns := ordered.registered j r entry
    refine (ordered.surveyed c unread left j r entry).imp_right fun before => ?_
    by_cases busy : (s.points i).record? = some r
    · obtain rfl := (ordered.owner i r busy).unique owns
      exact turn.stays possible asked free owns busy before
    · unfold Stays at before ⊢
      rw [turn.depth_untouched owns busy]
      by_cases same : j = i
      · subst same
        refine .inl (before.resolve_right ?_)
        rintro (there | there) <;> exact busy (by rw [there]; rfl)
      · rw [turn.points_other same]
        exact before

theorem turn (ordered : s.Orderly) (turn : s.Turn i t) : t.Orderly where
  possible := ordered.possible_of_turn turn
  owner _ _ := ordered.owner_of_turn turn
  registered _ _ := ordered.registered_of_turn turn
  lock := ordered.lock_of_turn turn
  phase _ := ordered.phase_of_turn turn
  idle := ordered.idle_of_turn turn
  unborn _ := ordered.unborn_of_turn turn
  balance _ _ := ordered.balance_of_turn turn
  captured _ _ := ordered.captured_of_turn turn
  shallow _ _ _ := ordered.shallow_of_turn turn
  surveyed _ _ left _ _ := ordered.surveyed_of_turn turn left

end Orderly

theorem orderly_start : Orderly {} where
  possible _ := trivial
  owner _ _ busy := nomatch busy
  registered _ _ entry := nomatch entry
  lock _ := iff_of_false id nofun
  phase _ held := nomatch held
  idle _ := rfl
  unborn _ _ := rfl
  balance _ _ owns := by simp [Owns, Threads.record?] at owns
  captured _ _ owns := by simp [Owns, Threads.record?] at owns
  shallow _ _ _ there := nomatch there
  surveyed _ _ left := nomatch left

/-- Threads keep a handshake in order, whatever they call. -/
theorem Reachable.orderly {may : Handshake → ThreadId → Call → Prop} {s : Handshake}
    (reachable : Reachable may s) : s.Orderly := by
  induction reachable with
  | start => exact orderly_start
  | call i c before allowed taken ordered => exact ordered.turn (turn_of_call taken)
  | advance i now choice before shown taken ordered =>
    exact ordered.turn (turn_of_advance shown taken)

end Handshake

end MarkSweep
