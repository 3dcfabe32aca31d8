import MarkSweep.Proofs.HandshakeEffects

set_option autoImplicit false

namespace MarkSweep

namespace Point

/-- How far the depth of a record is above the scopes that its thread is in. -/
def raised (p : Point) (r : RecordId) : Nat := if p.record? = some r ∧ p.isRaised then 1 else 0

/-- How far the depth of a record is below the scopes that its thread is in. -/
def lowered (p : Point) (r : RecordId) : Nat := if p.record? = some r ∧ p.isLowered then 1 else 0

end Point

namespace Handshake

/-- Whether a record is parked, or its thread is out of its scope for a moment during a stop. -/
def Stays (s : Handshake) (i : ThreadId) (r : RecordId) : Prop :=
  s.depth r ≠ 0 ∨ s.points i = .checking r ∨ s.points i = .returning r

section Steps

variable {s t : Handshake} {i j : ThreadId} {r : RecordId}

theorem raised_of_ne {p : Point} (apart : p.record? ≠ some r) :
    p.raised r = 0 ∧ p.lowered r = 0 := ⟨if_neg fun h => apart h.1, if_neg fun h => apart h.1⟩

theorem raised_of_level {p : Point} (raised : p.isRaised = false) (lowered : p.isLowered = false) :
    p.raised r = 0 ∧ p.lowered r = 0 := by
  simp [Point.raised, Point.lowered, raised, lowered]

theorem raised_unparkThen {record : Option RecordId} {next : Point}
    (raised : next.isRaised = false) (lowered : next.isLowered = false) :
    (unparkThen record next).raised r = (if record = some r then 1 else 0) ∧
      (unparkThen record next).lowered r = 0 := by
  cases record with
  | none => exact raised_of_level raised lowered
  | some => simp [unparkThen, Point.raised, Point.lowered, Point.record?, Point.isRaised,
      Point.isLowered]

theorem raised_parkThen {record : Option RecordId} {next : Point} (same : next.record? = record) :
    (parkThen record next).raised r = 0 ∧ (parkThen record next).lowered r = 0 := by
  cases record with
  | none => exact raised_of_ne (by simp [parkThen, same])
  | some => exact raised_of_level rfl rfl

theorem Moves.raised {p q : Point} (moves : s.Moves i p q) :
    q.raised r = p.raised r ∧ q.lowered r = p.lowered r := by
  cases moves with
  | meets | collects | stops =>
    rw [(raised_parkThen (by rfl)).1, (raised_parkThen (by rfl)).2]
    exact ⟨(raised_of_level rfl rfl).1.symm, (raised_of_level rfl rfl).2.symm⟩
  | _ => simp [Point.raised, Point.lowered, Point.record?, Point.isRaised, Point.isLowered]

theorem Locks.raised {p q : Point} (locks : Locks p q) :
    q.raised r = p.raised r ∧ q.lowered r = p.lowered r := by
  cases locks with
  | @wakes record task =>
    obtain ⟨up, down⟩ := @raised_unparkThen r record (.holding record task) rfl rfl
    rw [up, down]
    simp [Point.raised, Point.lowered, Point.record?, Point.isRaised, Point.isLowered]
  | acquires | waits =>
    simp [Point.raised, Point.lowered, Point.record?, Point.isRaised, Point.isLowered]

theorem Unlocks.raised {p q : Point} (unlocks : Unlocks p q) :
    q.raised r = p.raised r ∧ q.lowered r = p.lowered r := by
  cases unlocks with
  | releases | leaves =>
    simp [Point.raised, Point.lowered, Point.record?, Point.isRaised, Point.isLowered]

theorem Resumes.raised {p q : Point} (resumes : Resumes p q) (possible : p.IsPossible) :
    q.raised r = p.raised r ∧ q.lowered r = p.lowered r := by
  cases resumes with
  | @gives record _ next | @ends record next =>
    have level : next.isRaised = false ∧ next.isLowered = false := by
      cases possible with
      | releasing | holding => exact ⟨rfl, rfl⟩
    obtain ⟨up, down⟩ := @raised_unparkThen r record next level.1 level.2
    rw [up, down]
    simp [Point.raised, Point.lowered, Point.record?, Point.isRaised, Point.isLowered]

theorem depth_of_record? {t : Handshake} (same : (t.threads.record? r).map (·.depth) =
    (s.threads.record? r).map (·.depth)) : t.depth r = s.depth r := congrArg (Option.getD · 0) same

theorem Moves.newDepth {p q : Point} (moves : s.Moves i p q) (busy : p.record? = some r) :
    p.newDepth (s.depth r) = s.depth r := by
  cases moves with
  | strays shallow =>
    obtain rfl := Option.some.inj busy
    rw [shallow]
    rfl
  | _ => rfl

theorem Turn.depth (turn : s.Turn i t) (mine : s.Owns i r)
    (busy : (s.points i).record? = some r) :
    t.depth r = (s.points i).newDepth (s.depth r) := by
  cases turn with
  | moves here moves =>
    rw [here] at busy ⊢
    exact (moves.newDepth busy).symm
  | rests here | creates here | detaches here => simp [here, Point.record?] at busy
  | heeds here | leavesOuter here | requests here | achieves here =>
    rw [here]
    rfl
  | captures here =>
    rw [here]
    refine depth_of_record? ?_
    change ((s.threads.modify _ _).record? r).map _ = _
    rw [record?_modify]
    split
    · exact Option.map_map ..
    · rfl
  | parks here | enters here =>
    rw [here] at busy ⊢
    obtain rfl := Option.some.inj busy
    exact depth_changeDepth mine (· + 1)
  | returns here =>
    rw [here] at busy ⊢
    obtain rfl := Option.some.inj busy
    exact @depth_changeDepth { s with safepoint := s.safepoint.recordPark } _ _ mine (· + 1)
  | dips here | leavesInner here | unparks here =>
    rw [here] at busy ⊢
    obtain rfl := Option.some.inj busy
    exact depth_changeDepth mine (· - 1)
  | locks here free locks =>
    rw [here]
    cases locks with
    | acquires | wakes | waits => rfl
  | unlocks here unlocks =>
    rw [here]
    cases unlocks with
    | releases | leaves => rfl
  | registers here =>
    rw [here]
    exact depth_of_record? (congrArg _ (record?_insert _ _))
  | unregisters here =>
    rw [here]
    exact depth_of_record? (congrArg _ (record?_remove _ _))
  | resumes here idle resumes =>
    rw [here]
    cases resumes with
    | gives | ends => rfl

theorem Turn.balance (turn : s.Turn i t) (possible : (s.points i).IsPossible)
    (mine : s.Owns i r)
    (before : s.depth r + (s.points i).lowered r = s.scopes r + (s.points i).raised r)
    (busy : (s.points i).record? = some r) :
    t.depth r + (t.points i).lowered r = t.scopes r + (t.points i).raised r := by
  have depth := turn.depth mine busy
  cases turn with
  | moves here moves =>
    rw [here] at before busy
    rw [points_goto, moves.raised.1, moves.raised.2]
    exact before
  | locks here free locks =>
    rw [points_goto, locks.raised.1, locks.raised.2, ← here]
    exact before
  | unlocks here unlocks =>
    rw [points_goto, unlocks.raised.1, unlocks.raised.2, ← here]
    exact before
  | resumes here idle resumes =>
    rw [points_goto, (resumes.raised (here ▸ possible)).1, (resumes.raised (here ▸ possible)).2,
      ← here]
    exact before
  | rests here | creates here | detaches here => simp [here, Point.record?] at busy
  | captures here | heeds here | requests here | achieves here | registers here
  | unregisters here =>
    rw [depth]
    simpa [here, Point.raised, Point.lowered, Point.record?, Point.isRaised, Point.isLowered,
      Point.newDepth] using before
  | dips here last | returns here =>
    rw [here] at busy
    obtain rfl := Option.some.inj busy
    rw [depth]
    simp [here, Point.raised, Point.lowered, Point.record?, Point.isRaised, Point.isLowered,
      Point.newDepth] at before ⊢
    omega
  | leavesInner here deep | leavesOuter here free =>
    rw [here] at busy
    obtain rfl := Option.some.inj busy
    rw [depth]
    simp [here, Point.raised, Point.lowered, Point.record?, Point.isRaised, Point.isLowered,
      Point.newDepth] at before ⊢
    omega
  | @parks r' next here called =>
    rw [here] at busy possible
    obtain rfl := Option.some.inj busy
    rw [depth]
    have up : next.raised r' = 1 ∧ next.lowered r' = 0 := by
      cases possible with
      | outside => exact absurd rfl called.1
      | leaving => exact absurd rfl (called.2 r')
      | blocked | requesting =>
        simp [Point.raised, Point.lowered, Point.record?, Point.isRaised, Point.isLowered]
    rw [here, (raised_of_level rfl rfl).1, (raised_of_level rfl rfl).2] at before
    rw [points_goto, up.1, up.2, here]
    exact congrArg (· + 1) before
  | @enters r' next here own =>
    rw [here] at busy
    obtain rfl := Option.some.inj busy
    rw [depth]
    have level : next.raised r' = 0 ∧ next.lowered r' = 0 := by
      obtain rfl | ⟨r, rfl⟩ := own
      · exact raised_of_level rfl rfl
      · exact raised_of_level rfl rfl
    rw [here, (raised_of_level rfl rfl).1, (raised_of_level rfl rfl).2] at before
    rw [points_noteEntered, points_goto, level.1, level.2, scopes_noteEntered, here]
    exact congrArg (· + 1) before
  | @unparks r' next here =>
    rw [here] at busy possible
    obtain rfl := Option.some.inj busy
    rw [depth]
    have level : next.raised r' = 0 ∧ next.lowered r' = 0 := by
      cases possible with
      | releasing | holding => exact raised_of_level rfl rfl
    have before : s.depth r' = s.scopes r' + 1 := by
      simpa [here, Point.raised, Point.lowered, Point.record?, Point.isRaised, Point.isLowered]
        using before
    rw [points_goto, level.1, level.2, here]
    exact congrArg (· - 1) before

theorem snapshot_of_record? {t : Handshake} (same : (t.threads.record? r).map (·.snapshot) =
    (s.threads.record? r).map (·.snapshot)) : t.snapshot r = s.snapshot r :=
  congrArg (Option.getD · ({} : Snapshot)) same

theorem Moves.ne_capturing {p q : Point} (moves : s.Moves i p q) (next : Point) :
    p ≠ .capturing r next := by
  cases moves <;> nofun

theorem Locks.ne_capturing {p q : Point} (locks : Locks p q) (next : Point) :
    p ≠ .capturing r next := by
  cases locks <;> nofun

theorem Unlocks.ne_capturing {p q : Point} (unlocks : Unlocks p q) (next : Point) :
    p ≠ .capturing r next := by
  cases unlocks <;> nofun

theorem Resumes.ne_capturing {p q : Point} (resumes : Resumes p q) (next : Point) :
    p ≠ .capturing r next := by
  cases resumes <;> nofun

theorem Turn.snapshot (turn : s.Turn i t) (mine : s.Owns i r)
    (busy : (s.points i).record? = some r) :
    t.snapshot r = s.snapshot r ∧ (∀ next, s.points i ≠ .capturing r next) ∨
      (∃ next, s.points i = .capturing r next) ∧ (t.snapshot r).isCaptured = true := by
  cases turn with
  | captures here shown =>
    rw [here] at busy
    obtain rfl := Option.some.inj busy
    obtain ⟨x, found, -⟩ := exists_record mine
    refine .inr ⟨⟨_, here⟩, ?_⟩
    change Snapshot.isCaptured ((((s.threads.modify _ _).record? _).map _).getD {}) = true
    rw [record?_modify, if_pos rfl, found]
    exact shown
  | rests here | creates here | detaches here => simp [here, Point.record?] at busy
  | moves here moves => exact .inl ⟨rfl, fun next there => moves.ne_capturing next (here ▸ there)⟩
  | locks here free locks =>
    exact .inl ⟨rfl, fun next there => locks.ne_capturing next (here ▸ there)⟩
  | unlocks here unlocks =>
    exact .inl ⟨rfl, fun next there => unlocks.ne_capturing next (here ▸ there)⟩
  | resumes here idle resumes =>
    exact .inl ⟨rfl, fun next there => resumes.ne_capturing next (here ▸ there)⟩
  | heeds here | leavesOuter here | requests here | achieves here =>
    exact .inl ⟨rfl, by rw [here]; nofun⟩
  | parks here | enters here =>
    rw [here] at busy ⊢
    obtain rfl := Option.some.inj busy
    exact .inl ⟨snapshot_changeDepth (· + 1), nofun⟩
  | returns here =>
    rw [here] at busy ⊢
    obtain rfl := Option.some.inj busy
    exact .inl ⟨@snapshot_changeDepth { s with safepoint := s.safepoint.recordPark } _ (· + 1),
      nofun⟩
  | dips here | leavesInner here | unparks here =>
    rw [here] at busy ⊢
    obtain rfl := Option.some.inj busy
    exact .inl ⟨snapshot_changeDepth (· - 1), nofun⟩
  | registers here =>
    exact .inl ⟨snapshot_of_record? (congrArg _ (record?_insert _ _)), by rw [here]; nofun⟩
  | unregisters here =>
    exact .inl ⟨snapshot_of_record? (congrArg _ (record?_remove _ _)), by rw [here]; nofun⟩

theorem newDepth_ne_zero {p : Point} {depth : Nat} (deep : p.newDepth depth ≠ 0) :
    depth ≠ 0 ∨ p.hasCaptured = true := by
  cases p with
  | raising | returning => exact .inr rfl
  | leaving | lowering => exact .inl fun zero => deep (by rw [zero]; rfl)
  | _ => exact .inl deep

theorem hasCaptured_of_isPlain {p : Point} (plain : p.isPlain = true) : p.hasCaptured = false := by
  cases p with
  | raising | checking | returning => nomatch plain
  | _ => rfl

theorem ne_capturing_of_isPlain {p : Point} (plain : p.isPlain = true) (next : Point) :
    p ≠ .capturing r next := by
  rintro rfl
  nomatch plain

theorem unread?_of_isPlain {p : Point} (plain : p.isPlain = true) : p.unread? = none := by
  cases p with
  | surveying | stopped => nomatch plain
  | _ => rfl

theorem isPlain_parkThen {record : Option RecordId} {next : Point} (plain : next.isPlain = true) :
    (parkThen record next).isPlain = true := by
  cases record with
  | none => exact plain
  | some => rfl

theorem isPlain_of_afterPark {next : Point} (after : Point.AfterPark r next) :
    next.isPlain = true := by
  cases after with
  | outside | leaving | blocked | requesting => rfl

theorem isPlain_of_afterUnpark {next : Point} (after : Point.AfterUnpark r next) :
    next.isPlain = true := by
  cases after with
  | releasing | holding => rfl

theorem Locks.isPlain {p q : Point} (locks : Locks p q) : q.isPlain = true := by
  cases locks with
  | acquires | waits => rfl
  | @wakes record => cases record <;> rfl

theorem Unlocks.isPlain {p q : Point} (unlocks : Unlocks p q) : q.isPlain = true := by
  cases unlocks with
  | releases | leaves => rfl

theorem Resumes.isPlain {p q : Point} (resumes : Resumes p q) (possible : p.IsPossible) :
    q.isPlain = true := by
  cases resumes with
  | @gives record | @ends record => cases possible <;> cases record <;> rfl

/-- A turn that brings a thread to a point where something is noted. -/
inductive Notes (s : Handshake) (i : ThreadId) (t : Handshake) : Prop
  | shows {r : RecordId} {next : Point} (here : s.points i = .entering r next)
      (shallow : t.depth r = 0) (there : t.points i = .capturing r next)
  | nests {r : RecordId} {next : Point} (here : s.points i = .entering r next)
      (deep : s.depth r ≠ 0) (there : t.points i = .raising r next)
  | captures {r : RecordId} {next : Point} (here : s.points i = .capturing r next)
      (there : t.points i = .raising r next)
  | dips {r : RecordId} (here : s.points i = .leaving r) (last : s.depth r = 1)
      (there : t.points i = .checking r)
  | stays {r : RecordId} (here : s.points i = .checking r) (there : t.points i = .returning r)
  | surveys {record : Option RecordId} {patience : Patience} {next : Point}
      (there : t.points i = .surveying record patience next s.registeredRecords)
      (same : t.threads = s.threads)
  | sees {record : Option RecordId} {patience : Patience} {next : Point} {r : RecordId}
      {unread : List RecordId}
      (here : s.points i = .surveying record patience next (r :: unread)) (deep : s.depth r ≠ 0)
      (there : t.points i = .surveying record patience next unread) (same : t.threads = s.threads)
  | achieves {record : Option RecordId} {patience : Patience} {next : Point}
      (here : s.points i = .surveying record patience next [])
      (there : t.points i = .stopped record next) (same : t.threads = s.threads)

theorem Moves.notes {p q : Point} (moves : s.Moves i p q) (here : s.points i = p) :
    q.isPlain = true ∨ s.Notes i (s.goto i q) := by
  cases moves with
  | shows shallow => exact .inr (.shows here shallow (points_goto _ _ _))
  | nests deep => exact .inr (.nests here deep (points_goto _ _ _))
  | stays => exact .inr (.stays here (points_goto _ _ _))
  | sees deep => exact .inr (.sees here deep (points_goto _ _ _) rfl)
  | retries => exact .inr (.surveys (points_goto _ _ _) rfl)
  | meets | collects | stops => exact .inl (isPlain_parkThen rfl)
  | _ => exact .inl rfl

theorem Turn.notes (turn : s.Turn i t) (possible : (s.points i).IsPossible) :
    (t.points i).isPlain = true ∨ s.Notes i t := by
  cases turn with
  | rests here =>
    rw [here]
    exact .inl rfl
  | moves here moves =>
    rw [points_goto]
    exact moves.notes here
  | captures here => exact .inr (.captures here (points_goto _ _ _))
  | dips here last => exact .inr (.dips here last (points_goto _ _ _))
  | requests => exact .inr (.surveys (points_goto _ _ _) rfl)
  | achieves here => exact .inr (.achieves here (points_goto _ _ _) rfl)
  | parks here | enters here =>
    rw [here] at possible
    simp only [points_noteEntered, points_goto]
    exact .inl (isPlain_of_afterPark possible)
  | unparks here =>
    rw [here] at possible
    rw [points_goto]
    exact .inl (isPlain_of_afterUnpark possible)
  | locks here free locks =>
    rw [points_goto]
    exact .inl locks.isPlain
  | unlocks here unlocks =>
    rw [points_goto]
    exact .inl unlocks.isPlain
  | resumes here idle resumes =>
    rw [here] at possible
    rw [points_goto]
    exact .inl (resumes.isPlain possible)
  | creates | detaches | heeds | leavesInner | leavesOuter | returns | registers | unregisters =>
    simp only [points_noteLeft, points_goto]
    exact .inl rfl

/-- A thread comes to have a snapshot at depth zero by taking one, or from a depth that is not
zero. -/
theorem Turn.hasCaptured (turn : s.Turn i t) (possible : (s.points i).IsPossible)
    (busy : (s.points i).record? = some r) (shown : (t.points i).hasCaptured = true) :
    s.depth r ≠ 0 ∨ (s.points i).hasCaptured = true ∨ ∃ next, s.points i = .capturing r next := by
  obtain plain | notes := turn.notes possible
  · rw [hasCaptured_of_isPlain plain] at shown
    nomatch shown
  · cases notes with
    | nests here deep there =>
      rw [here] at busy
      obtain rfl := Option.some.inj busy
      exact .inl deep
    | captures here there =>
      rw [here] at busy ⊢
      obtain rfl := Option.some.inj busy
      exact .inr (.inr ⟨_, rfl⟩)
    | dips here last there =>
      rw [here] at busy
      obtain rfl := Option.some.inj busy
      exact .inl (by omega)
    | stays here there =>
      rw [here]
      exact .inr (.inl rfl)
    | shows _ _ there | surveys there | sees _ _ there | achieves _ there =>
      rw [there] at shown
      nomatch shown

theorem Turn.capturing (turn : s.Turn i t) (possible : (s.points i).IsPossible) {next : Point}
    (capturing : t.points i = .capturing r next) : t.depth r = 0 := by
  obtain plain | notes := turn.notes possible
  · exact absurd capturing (ne_capturing_of_isPlain plain next)
  · cases notes with
    | shows here shallow there =>
      obtain ⟨rfl, rfl⟩ := Point.capturing.inj (there.symm.trans capturing)
      exact shallow
    | nests _ _ there | captures _ there | dips _ _ there | stays _ there | surveys there
    | sees _ _ there | achieves _ there => nomatch there.symm.trans capturing

theorem Turn.unread (turn : s.Turn i t) (possible : (s.points i).IsPossible)
    {unread : List RecordId} (left : (t.points i).unread? = some unread) :
    t.threads = s.threads ∧ (unread = s.registeredRecords ∨
      (s.points i).unread? = some unread ∨
      ∃ r, s.depth r ≠ 0 ∧ (s.points i).unread? = some (r :: unread)) := by
  obtain plain | notes := turn.notes possible
  · rw [unread?_of_isPlain plain] at left
    nomatch left
  · cases notes with
    | surveys there same =>
      rw [there] at left
      exact ⟨same, .inl (Option.some.inj left).symm⟩
    | sees here deep there same =>
      rw [there] at left
      obtain rfl := Option.some.inj left
      rw [here]
      exact ⟨same, .inr (.inr ⟨_, deep, rfl⟩)⟩
    | achieves here there same =>
      rw [there] at left
      rw [here]
      exact ⟨same, .inr (.inl left)⟩
    | shows _ _ there | nests _ _ there | captures _ there | dips _ _ there | stays _ there =>
      rw [there] at left
      nomatch left

theorem Turn.begins (turn : s.Turn i t) (here : s.points i = .outside) :
    (t.points i).isRaised = false ∧ (t.points i).isLowered = false ∧
      (t.points i).hasCaptured = false := by
  cases turn with
  | rests there =>
    rw [there]
    exact ⟨rfl, rfl, rfl⟩
  | moves there moves =>
    obtain rfl := here.symm.trans there
    rw [points_goto]
    cases moves <;> exact ⟨rfl, rfl, rfl⟩
  | creates | detaches =>
    rw [points_goto]
    exact ⟨rfl, rfl, rfl⟩
  | locks there free locks =>
    obtain rfl := here.symm.trans there
    nomatch locks
  | unlocks there unlocks =>
    obtain rfl := here.symm.trans there
    nomatch unlocks
  | resumes there idle resumes =>
    obtain rfl := here.symm.trans there
    nomatch resumes
  | heeds there | captures there | parks there | enters there | dips there | leavesInner there
  | leavesOuter there | returns there | unparks there | registers there | unregisters there
  | requests there | achieves there => nomatch here.symm.trans there

/-- While a stop is under way, a thread without the lock does not get out of its record. -/
theorem Turn.stays (turn : s.Turn i t) (possible : (s.points i).IsPossible)
    (asked : s.safepoint.phase ≠ .idle) (free : ¬ (s.points i).HoldsLock) (mine : s.Owns i r)
    (busy : (s.points i).record? = some r) (before : s.Stays i r) : t.Stays i r := by
  have depth := turn.depth mine busy
  unfold Stays at before
  cases turn with
  | moves here moves =>
    rw [here] at before depth busy
    cases moves with
    | stays =>
      obtain rfl := Option.some.inj busy
      exact .inr (.inr (points_goto _ _ _))
    | _ => exact .inl (before.resolve_right (by nofun))
  | dips here last =>
    rw [here] at busy
    obtain rfl := Option.some.inj busy
    exact .inr (.inl (points_goto _ _ _))
  | leavesInner here deep =>
    rw [here] at busy depth
    obtain rfl := Option.some.inj busy
    refine .inl ?_
    rw [depth, Point.newDepth]
    omega
  | leavesOuter here idle => exact absurd idle asked
  | returns here =>
    rw [here] at depth
    exact .inl (by rw [depth]; exact Nat.succ_ne_zero _)
  | unparks here =>
    rw [here] at possible free
    cases possible <;> exact absurd trivial free
  | parks here | enters here =>
    rw [here] at depth
    exact .inl (by rw [depth]; exact Nat.succ_ne_zero _)
  | locks here idle locks =>
    rw [here] at before
    cases locks <;> exact .inl (before.resolve_right (by nofun))
  | unlocks here unlocks => exact absurd (here ▸ unlocks.holdsLock.1) free
  | resumes here idle resumes =>
    rw [here] at possible free
    exact absurd (resumes.holdsLock possible).1 free
  | rests here | creates here | detaches here => simp [here, Point.record?] at busy
  | heeds here | captures here =>
    rw [here] at before depth
    exact .inl (by rw [depth]; exact before.resolve_right (by nofun))
  | registers here | unregisters here | requests here | achieves here =>
    rw [here] at free
    exact absurd trivial free

theorem Turn.stays_of_unread (turn : s.Turn i t) (threads : t.threads = s.threads)
    {unread : List RecordId} (left : (s.points i).unread? = some unread) (before : s.Stays j r) :
    t.Stays j r := by
  have depth : t.depth r = s.depth r := by simp only [Handshake.depth, threads]
  unfold Stays at before ⊢
  rw [depth]
  by_cases same : j = i
  · subst same
    refine .inl (before.resolve_right ?_)
    rintro (there | there) <;> simp [there, Point.unread?] at left
  · rw [turn.points_other same]
    exact before

end Steps

end Handshake

end MarkSweep
