import MarkSweep.Proofs.HandshakeTurns

set_option autoImplicit false

namespace MarkSweep

namespace Handshake

section Records

variable {s : Handshake} {i j : ThreadId} {r r' : RecordId}

theorem updated_same {α : Type} (f : Nat → α) (i : Nat) (a : α) : updated f i a i = a := if_pos rfl

theorem updated_other {α : Type} (f : Nat → α) {i j : Nat} (other : j ≠ i) (a : α) :
    updated f i a j = f j := if_neg other

theorem record?_modify (t : Threads) (r r' : RecordId) (f : ThreadRecord → ThreadRecord) :
    (t.modify r f).record? r' = if r = r' then (t.record? r').map f else t.record? r' := by
  simp [Threads.record?, Threads.modify, Array.getElem?_modify]

theorem Owns.unique (mine : s.Owns i r) (yours : s.Owns j r) : i = j :=
  Option.some.inj (mine.symm.trans yours)

theorem exists_record (mine : s.Owns i r) :
    ∃ t, s.threads.record? r = some t ∧ t.thread = i := Option.map_eq_some_iff.1 mine

theorem owns_modify {t : Handshake} {f : ThreadRecord → ThreadRecord}
    (threads : t.threads = s.threads.modify r f) (keeps : ∀ x, (f x).thread = x.thread) :
    t.Owns j r' ↔ s.Owns j r' := by
  unfold Owns
  rw [threads, record?_modify]
  split
  · rw [Option.map_map]
    simp only [Function.comp_def, keeps]
  · rfl

theorem depth_changeDepth (mine : s.Owns i r) (f : Nat → Nat) :
    (s.changeDepth r f).depth r = f (s.depth r) := by
  obtain ⟨x, found, -⟩ := exists_record mine
  simp [depth, Threads.depth, changeDepth, record?_modify, found]

theorem snapshot_changeDepth (f : Nat → Nat) : (s.changeDepth r f).snapshot r = s.snapshot r := by
  simp only [snapshot, changeDepth, record?_modify, if_pos]
  rw [Option.map_map]
  rfl

theorem record?_insert (t : Threads) (id : RecordId) :
    ((t.insert id).toOption.getD t).record? r = t.record? r := by
  unfold Threads.insert
  cases t.record? id with
  | none => rfl
  | some x =>
    cases found : t.current? x.thread with
    | none => simp only [found]; rfl
    | some other => simp only [found]; rfl

theorem mem_registered_insert {t : Threads} {id : RecordId}
    (mem : (i, r) ∈ ((t.insert id).toOption.getD t).registered) :
    (i, r) ∈ t.registered ∨ ∃ x, t.record? id = some x ∧ i = x.thread ∧ r = id := by
  unfold Threads.insert at mem
  cases found : t.record? id with
  | none =>
    simp only [found] at mem
    exact .inl mem
  | some x =>
    cases known : t.current? x.thread with
    | some other =>
      simp only [found, known] at mem
      exact .inl mem
    | none =>
      simp only [found, known] at mem
      refine (List.mem_append.1 mem).imp_right fun new => ?_
      obtain ⟨rfl, rfl⟩ := Prod.mk.inj (List.mem_singleton.1 new)
      exact ⟨x, rfl, rfl, rfl⟩

theorem record?_remove (t : Threads) (i : ThreadId) :
    (((t.remove i).toOption.map Prod.snd).getD t).record? r = t.record? r := by
  unfold Threads.remove
  cases t.current? i <;> rfl

theorem mem_registered_remove {t : Threads}
    (mem : (j, r) ∈ (((t.remove i).toOption.map Prod.snd).getD t).registered) :
    (j, r) ∈ t.registered := by
  unfold Threads.remove at mem
  cases found : t.current? i with
  | none =>
    simp only [found] at mem
    exact mem
  | some id =>
    simp only [found] at mem
    exact (List.mem_filter.1 mem).1

theorem mem_registered_of_current? {t : Threads} (found : t.current? i = some r) :
    (i, r) ∈ t.registered := by
  obtain ⟨before, after, split, -⟩ := List.lookup_eq_some_iff.1 found
  simp [split]

theorem record?_push {t : Threads} {x : ThreadRecord} :
    (t.create x).2.record? r = if r = t.records.size then some x else t.record? r :=
  Array.getElem?_push

theorem record?_size (t : Threads) : t.record? t.records.size = none :=
  Array.getElem?_eq_none (Nat.le_refl _)

end Records

section Turns

variable {s t : Handshake} {i j : ThreadId} {r : RecordId}

@[simp] theorem points_goto (s : Handshake) (i : ThreadId) (p : Point) :
    (s.goto i p).points i = p := updated_same _ _ _

@[simp] theorem scopes_goto (s : Handshake) (i : ThreadId) (p : Point) :
    (s.goto i p).scopes = s.scopes := rfl

@[simp] theorem scopes_changeDepth (s : Handshake) (r : RecordId) (f : Nat → Nat) :
    (s.changeDepth r f).scopes = s.scopes := rfl

@[simp] theorem scopes_noteEntered (s : Handshake) (r : RecordId) :
    (s.noteEntered r).scopes r = s.scopes r + 1 := updated_same _ _ _

@[simp] theorem scopes_noteLeft (s : Handshake) (r : RecordId) :
    (s.noteLeft r).scopes r = s.scopes r - 1 := updated_same _ _ _

@[simp] theorem points_noteEntered (s : Handshake) (r : RecordId) :
    (s.noteEntered r).points = s.points := rfl

@[simp] theorem points_noteLeft (s : Handshake) (r : RecordId) :
    (s.noteLeft r).points = s.points := rfl

theorem points_goto_other (s : Handshake) (p : Point) (other : j ≠ i) :
    (s.goto i p).points j = s.points j := updated_other _ other _

theorem Turn.points_other (turn : s.Turn i t) (other : j ≠ i) : t.points j = s.points j := by
  cases turn with
  | rests => rfl
  | _ => exact points_goto_other _ _ other

theorem Turn.owns (turn : s.Turn i t) (owns : s.Owns j r) : t.Owns j r := by
  cases turn with
  | rests | moves | heeds | leavesOuter | locks | unlocks | requests | achieves | resumes =>
    exact owns
  | detaches | captures | parks | enters | dips | leavesInner | returns | unparks =>
    refine (owns_modify (by exact rfl) ?_).2 owns
    exact fun _ => rfl
  | creates here =>
    change ((s.threads.create _).2.record? r).map _ = _
    have old : r ≠ s.threads.records.size := by
      rintro rfl
      simp [Owns, record?_size] at owns
    rw [record?_push, if_neg old]
    exact owns
  | registers here =>
    change (((s.threads.insert _).toOption.getD s.threads).record? r).map _ = _
    rw [record?_insert]
    exact owns
  | unregisters here =>
    change ((((s.threads.remove i).toOption.map Prod.snd).getD s.threads).record? r).map _ = _
    rw [record?_remove]
    exact owns

theorem Turn.owns_before (turn : s.Turn i t) (owns : t.Owns j r) :
    s.Owns j r ∨ s.threads.record? r = none ∧ t.depth r = 0 ∧ t.scopes r = s.scopes r ∧
      (t.points j).record? = none := by
  cases turn with
  | rests | moves | heeds | leavesOuter | locks | unlocks | requests | achieves | resumes =>
    exact .inl owns
  | detaches | captures | parks | enters | dips | leavesInner | returns | unparks =>
    refine .inl ((owns_modify (by exact rfl) ?_).1 owns)
    exact fun _ => rfl
  | creates here =>
    by_cases new : r = s.threads.records.size
    · subst new
      refine .inr ⟨record?_size _, ?_, rfl, ?_⟩
      · change (((s.threads.create _).2.record? _).map _).getD 0 = 0
        rw [record?_push, if_pos rfl]
        rfl
      · change ((s.threads.create _).2.record? _).map _ = _ at owns
        rw [record?_push, if_pos rfl] at owns
        obtain rfl : i = j := Option.some.inj owns
        rw [points_goto]
        rfl
    · change ((s.threads.create _).2.record? r).map _ = _ at owns
      rw [record?_push, if_neg new] at owns
      exact .inl owns
  | registers here =>
    change (((s.threads.insert _).toOption.getD s.threads).record? r).map _ = _ at owns
    rw [record?_insert] at owns
    exact .inl owns
  | unregisters here =>
    change ((((s.threads.remove i).toOption.map Prod.snd).getD s.threads).record? r).map _ = _
      at owns
    rw [record?_remove] at owns
    exact .inl owns

/-- A turn does not touch a record that the thread is not busy with, but for its handle. -/
theorem Turn.record?_untouched {α : Type} (f : ThreadRecord → α)
    (blind : ∀ x, f { x with attached := false } = f x) (turn : s.Turn i t) (owns : s.Owns j r)
    (apart : (s.points i).record? ≠ some r) :
    (t.threads.record? r).map f = (s.threads.record? r).map f := by
  have away : ∀ {p : Point} {r' : RecordId} {g : ThreadRecord → ThreadRecord}, s.points i = p →
      p.record? = some r' → ((s.threads.modify r' g).record? r).map f =
        (s.threads.record? r).map f := fun here busy => by
    rw [record?_modify, if_neg fun same => apart (by rw [here, busy, same])]
  cases turn with
  | rests | moves | heeds | leavesOuter | locks | unlocks | requests | achieves | resumes => rfl
  | captures here | parks here | enters here | dips here | leavesInner here | returns here
  | unparks here => exact away here rfl
  | creates here =>
    have old : r ≠ s.threads.records.size := by
      rintro rfl
      simp [Owns, record?_size] at owns
    exact congrArg _ (record?_push.trans (if_neg old))
  | @detaches r' here mine =>
    change ((s.threads.modify r' _).record? r).map f = _
    rw [record?_modify]
    split
    · rw [Option.map_map]
      exact congrArg (Option.map · _) (funext blind)
    · rfl
  | registers here => exact congrArg _ (record?_insert _ _)
  | unregisters here => exact congrArg _ (record?_remove _ _)

theorem Turn.depth_untouched (turn : s.Turn i t) (owns : s.Owns j r)
    (apart : (s.points i).record? ≠ some r) : t.depth r = s.depth r :=
  congrArg (Option.getD · 0) (turn.record?_untouched (·.depth) (fun _ => rfl) owns apart)

theorem Turn.snapshot_untouched (turn : s.Turn i t) (owns : s.Owns j r)
    (apart : (s.points i).record? ≠ some r) : t.snapshot r = s.snapshot r :=
  congrArg (Option.getD · ({} : Snapshot))
    (turn.record?_untouched (·.snapshot) (fun _ => rfl) owns apart)

theorem Turn.scopes_untouched (turn : s.Turn i t) (apart : (s.points i).record? ≠ some r) :
    t.scopes r = s.scopes r := by
  have away : ∀ {p : Point} {r' : RecordId} {n : Nat}, s.points i = p → p.record? = some r' →
      updated s.scopes r' n r = s.scopes r := fun here busy =>
    updated_other _ (fun same => apart (by rw [here, busy, same])) _
  cases turn with
  | enters here | leavesInner here | leavesOuter here => exact away here rfl
  | _ => rfl

end Turns

section Steps

variable {s t : Handshake} {i j : ThreadId} {r : RecordId}

theorem isPossible_unparkThen {record : Option RecordId} {next : Point}
    (after : Point.AfterStop record next) : (unparkThen record next).IsPossible := by
  cases after with
  | releasing =>
    cases record with
    | none => trivial
    | some r => exact .releasing
  | holding n =>
    cases record with
    | none => trivial
    | some r => exact .holding _

theorem Moves.isPossible {p q : Point} (moves : s.Moves i p q) (before : p.IsPossible) :
    q.IsPossible := by
  cases moves with
  | enters => exact .outside
  | leaves | polls | asks | passes | strays | stays | finishes => trivial
  | shows | nests | sees | misses | retries => exact before
  | @meets record task =>
    cases record with
    | none => trivial
    | some r => exact .blocked _
  | @collects record n =>
    cases record with
    | none => exact .holding _
    | some r => exact .requesting _ (.holding _)
  | @stops record patience =>
    cases record with
    | none => exact .releasing
    | some r => exact .requesting _ .releasing

theorem isPossible_of_afterPark {next : Point} (after : Point.AfterPark r next) :
    next.IsPossible := by
  cases after with
  | outside | leaving | blocked => trivial
  | requesting _ after => exact after

theorem Turn.isPossible (turn : s.Turn i t) (before : (s.points i).IsPossible) :
    (t.points i).IsPossible := by
  cases turn with
  | rests => exact before
  | moves here moves =>
    rw [here] at before
    rw [points_goto]
    exact moves.isPossible before
  | creates | detaches | dips | leavesInner | leavesOuter | returns | registers | unregisters =>
    simp only [noteLeft, points_goto]
    trivial
  | heeds here =>
    rw [points_goto]
    exact .leaving
  | captures here | requests here | achieves here =>
    rw [here] at before
    rw [points_goto]
    exact before
  | parks here | enters here =>
    rw [here] at before
    simp only [noteEntered, points_goto]
    exact isPossible_of_afterPark before
  | unparks here =>
    rw [here] at before
    rw [points_goto]
    cases before with
    | releasing | holding => trivial
  | locks here free locks =>
    rw [points_goto]
    cases locks with
    | acquires | waits => trivial
    | @wakes record task =>
      cases record with
      | none => trivial
      | some r => exact .holding _
  | unlocks here unlocks =>
    rw [points_goto]
    cases unlocks with
    | releases | leaves => trivial
  | resumes here idle resumes =>
    rw [here] at before
    rw [points_goto]
    cases resumes with
    | gives | ends => exact isPossible_unparkThen before

theorem record?_of_afterStop {record : Option RecordId} {next : Point}
    (after : Point.AfterStop record next) (busy : next.record? = some r) : record = some r := by
  cases after with
  | releasing => nomatch busy
  | holding => exact busy

theorem record?_of_afterPark {r' : RecordId} {next : Point} (after : Point.AfterPark r' next)
    (busy : next.record? = some r) : r' = r := by
  cases after with
  | outside => nomatch busy
  | leaving | blocked | requesting => exact Option.some.inj busy

theorem record?_parkThen {record : Option RecordId} {next : Point}
    (busy : (parkThen record next).record? = some r) (same : next.record? = record) :
    record = some r := by
  cases record with
  | none => exact same.symm.trans busy
  | some r' => exact busy

theorem record?_unparkThen {record : Option RecordId} {next : Point}
    (after : Point.AfterStop record next) (busy : (unparkThen record next).record? = some r) :
    record = some r := by
  cases record with
  | none => exact record?_of_afterStop after busy
  | some r' => exact busy

theorem Moves.record? {p q : Point} (moves : s.Moves i p q) (busy : q.record? = some r) :
    p.record? = some r ∨ p = .outside ∧ (s.Owns i r ∨ s.threads.current? i = some r) := by
  cases moves with
  | enters mine | leaves mine | polls mine =>
    obtain rfl := Option.some.inj busy
    exact .inr ⟨rfl, .inl mine⟩
  | asks mine => exact .inr ⟨rfl, mine r busy⟩
  | shows | nests | stays | sees | misses | retries => exact .inl busy
  | passes | strays | finishes => nomatch busy
  | meets | collects | stops => exact .inl (record?_parkThen busy rfl)

/-- A thread turns to a record only from code of its own. -/
theorem Turn.record? (turn : s.Turn i t) (possible : (s.points i).IsPossible)
    (busy : (t.points i).record? = some r) :
    (s.points i).record? = some r ∨
      s.points i = .outside ∧ (s.Owns i r ∨ s.threads.current? i = some r) := by
  cases turn with
  | rests => exact .inl busy
  | moves here moves =>
    rw [points_goto] at busy
    rw [here]
    exact moves.record? busy
  | creates | registers | unregisters | leavesInner | leavesOuter =>
    simp only [noteLeft, points_goto] at busy
    nomatch busy
  | detaches here mine =>
    rw [points_goto] at busy
    obtain rfl := Option.some.inj busy
    exact .inr ⟨here, .inl mine⟩
  | heeds here | captures here | dips here | returns here | requests here | achieves here =>
    rw [points_goto] at busy
    rw [here]
    exact .inl busy
  | parks here | enters here =>
    simp only [noteEntered, points_goto] at busy
    rw [here] at possible ⊢
    exact .inl (congrArg some (record?_of_afterPark possible busy))
  | unparks here =>
    rw [points_goto] at busy
    rw [here] at possible ⊢
    cases possible with
    | releasing => nomatch busy
    | holding => exact .inl busy
  | locks here free locks =>
    rw [points_goto] at busy
    rw [here]
    cases locks with
    | acquires | waits => exact .inl busy
    | @wakes record task =>
      cases record with
      | none => nomatch busy
      | some r' => exact .inl busy
  | unlocks here unlocks =>
    rw [points_goto] at busy
    rw [here]
    cases unlocks with
    | releases => nomatch busy
    | leaves => exact .inl busy
  | resumes here idle resumes =>
    rw [points_goto] at busy
    rw [here] at possible ⊢
    cases resumes with
    | gives | ends => exact .inl (record?_unparkThen possible busy)

theorem Turn.registered (turn : s.Turn i t) (entry : (j, r) ∈ t.threads.registered) :
    (j, r) ∈ s.threads.registered ∨
      s.Owns j r ∧ (s.points i).HoldsLock ∧ t.points i = .releasing := by
  cases turn with
  | registers here =>
    refine (mem_registered_insert entry).imp_right ?_
    rintro ⟨x, found, rfl, rfl⟩
    exact ⟨Option.map_eq_some_iff.2 ⟨x, found, rfl⟩, by rw [here]; trivial, points_goto _ _ _⟩
  | unregisters here => exact .inl (mem_registered_remove entry)
  | _ => exact .inl entry

theorem holdsLock_unparkThen {record : Option RecordId} {next : Point}
    (after : Point.AfterStop record next) : (unparkThen record next).HoldsLock := by
  cases after with
  | releasing | holding => cases record <;> trivial

theorem holdsLock_parkThen {record : Option RecordId} {next : Point} :
    (parkThen record next).HoldsLock ↔ next.HoldsLock := by
  cases record with
  | none | some => rfl

theorem Moves.holdsLock {p q : Point} (moves : s.Moves i p q) : q.HoldsLock ↔ p.HoldsLock := by
  cases moves with
  | meets | collects | stops => exact holdsLock_parkThen
  | _ => rfl

theorem Locks.holdsLock {p q : Point} (locks : Locks p q) : ¬ p.HoldsLock ∧ q.HoldsLock := by
  cases locks with
  | acquires | waits => exact ⟨id, trivial⟩
  | @wakes record task => cases record <;> exact ⟨id, trivial⟩

theorem Unlocks.holdsLock {p q : Point} (unlocks : Unlocks p q) : p.HoldsLock ∧ ¬ q.HoldsLock := by
  cases unlocks with
  | releases | leaves => exact ⟨trivial, id⟩

theorem Resumes.holdsLock {p q : Point} (resumes : Resumes p q) (possible : p.IsPossible) :
    p.HoldsLock ∧ q.HoldsLock := by
  cases resumes with
  | gives | ends => exact ⟨trivial, holdsLock_unparkThen possible⟩

theorem Turn.lock (turn : s.Turn i t) (possible : (s.points i).IsPossible) :
    t.lock = s.lock ∧ ((t.points i).HoldsLock ↔ (s.points i).HoldsLock) ∨
      s.lock = none ∧ t.lock = some i ∧ (t.points i).HoldsLock ∨
      (s.points i).HoldsLock ∧ t.lock = none ∧ ¬ (t.points i).HoldsLock := by
  cases turn with
  | rests => exact .inl ⟨rfl, .rfl⟩
  | moves here moves =>
    rw [here, points_goto]
    exact .inl ⟨rfl, moves.holdsLock⟩
  | creates here | detaches here | heeds here | captures here | dips here | leavesInner here
  | leavesOuter here | returns here | registers here | unregisters here | parks here | enters here
  | unparks here | requests here | achieves here =>
    simp only [noteEntered, noteLeft, here, points_goto]
    exact .inl ⟨rfl, .rfl⟩
  | locks here free locks =>
    rw [points_goto]
    exact .inr (.inl ⟨free, rfl, locks.holdsLock.2⟩)
  | unlocks here unlocks =>
    rw [here, points_goto]
    exact .inr (.inr ⟨unlocks.holdsLock.1, rfl, unlocks.holdsLock.2⟩)
  | resumes here idle resumes =>
    rw [here] at possible ⊢
    rw [points_goto]
    exact .inl ⟨rfl, iff_of_true (resumes.holdsLock possible).2 (resumes.holdsLock possible).1⟩

theorem phase_unparkThen {record : Option RecordId} {next : Point}
    (after : Point.AfterStop record next) : (unparkThen record next).phase = .idle := by
  cases after with
  | releasing | holding => cases record <;> rfl

theorem phase_parkThen {record : Option RecordId} {next : Point} (idle : next.phase = .idle) :
    (parkThen record next).phase = .idle := by
  cases record with
  | none => exact idle
  | some => rfl

/-- A thread has brought about a phase only with the lock. -/
theorem phase_of_not_holdsLock {p : Point} (free : ¬ p.HoldsLock) : p.phase = .idle := by
  cases p with
  | surveying | retrying | stopped => exact absurd trivial free
  | _ => rfl

theorem Moves.phase {p q : Point} (moves : s.Moves i p q) : q.phase = p.phase := by
  cases moves with
  | meets | collects | stops => exact phase_parkThen rfl
  | _ => rfl

theorem Turn.phase (turn : s.Turn i t) (possible : (s.points i).IsPossible) :
    t.safepoint.phase = s.safepoint.phase ∧ (t.points i).phase = (s.points i).phase ∨
      (s.points i).HoldsLock ∧ t.safepoint.phase = (t.points i).phase := by
  cases turn with
  | rests => exact .inl ⟨rfl, rfl⟩
  | moves here moves =>
    rw [here, points_goto]
    exact .inl ⟨rfl, moves.phase⟩
  | creates here | detaches here | heeds here | captures here | dips here | leavesInner here
  | leavesOuter here | returns here | registers here | unregisters here =>
    simp only [noteLeft, here, points_goto]
    exact .inl ⟨rfl, rfl⟩
  | parks here | enters here =>
    simp only [noteEntered, here, points_goto] at possible ⊢
    refine .inl ⟨rfl, ?_⟩
    cases possible with
    | outside | leaving | blocked | requesting => rfl
  | unparks here =>
    simp only [here, points_goto] at possible ⊢
    refine .inl ⟨rfl, ?_⟩
    cases possible with
    | releasing | holding => rfl
  | locks here free locks =>
    rw [here, points_goto]
    refine .inl ⟨rfl, ?_⟩
    cases locks with
    | acquires | waits => rfl
    | @wakes record => cases record <;> rfl
  | unlocks here unlocks =>
    rw [here, points_goto]
    refine .inl ⟨rfl, ?_⟩
    cases unlocks with
    | releases | leaves => rfl
  | requests here | achieves here =>
    rw [here, points_goto]
    exact .inr ⟨trivial, rfl⟩
  | resumes here idle resumes =>
    rw [here] at possible ⊢
    rw [points_goto]
    refine .inr ⟨(resumes.holdsLock possible).1, idle.trans ?_⟩
    cases resumes with
    | gives | ends => exact (phase_unparkThen possible).symm

end Steps

end Handshake

end MarkSweep
