import MarkSweep.Proofs.HandleRegistration

set_option autoImplicit false

namespace MarkSweep

/-- What a thread has set out to do with the scopes of a record. -/
inductive Errand
  | enter (record : RecordId)
  | poll (record : RecordId)
  | leave (record : RecordId)
  | other
deriving DecidableEq, Repr

namespace Point

def errandFrom (r : RecordId) : Point → Errand
  | outside => .enter r
  | leaving _ => .poll r
  | _ => .other

def errand : Point → Errand
  | entering r next | capturing r next | raising r next => next.errandFrom r
  | polling r => .poll r
  | leaving r | checking r | returning r | waiting r | waited r => .leave r
  | _ => .other

end Point

def Call.errand : Call → Errand
  | enter r => .enter r
  | poll r => .poll r
  | leave r => .leave r
  | _ => .other

namespace Handshake

variable {s t : Handshake} {i j : ThreadId} {r : RecordId} {c : Call}

/-- What an access of a thread that is in a call does to its errand and to the scopes. -/
inductive Progress (s : Handshake) (i : ThreadId) (t : Handshake) : Prop
  | goes (away : t.points i ≠ .outside) (same : (t.points i).errand = (s.points i).errand)
      (scopes : t.scopes = s.scopes)
  | ends (there : t.points i = .outside)
      (level : (s.points i).errand = .other ∨ ∃ r, (s.points i).errand = .poll r)
      (scopes : t.scopes = s.scopes)
  | strays {r : RecordId} (here : s.points i = .leaving r) (there : t.points i = .outside)
      (shallow : s.depth r = 0) (scopes : t.scopes = s.scopes)
  | enters {r : RecordId} (here : s.points i = .raising r .outside) (there : t.points i = .outside)
      (scopes : t.scopes = updated s.scopes r (s.scopes r + 1))
  | pauses {r : RecordId} (here : (s.points i).errand = .poll r) (there : t.points i = .leaving r)
      (scopes : t.scopes = updated s.scopes r (s.scopes r + 1))
  | leaves {r : RecordId}
      (here : s.points i = .leaving r ∧ s.depth r ≠ 0 ∨ s.points i = .checking r)
      (there : t.points i = .outside) (scopes : t.scopes = updated s.scopes r (s.scopes r - 1))

theorem errand_parkThen {record : Option RecordId} {next : Point}
    (other : ∀ r, next.errandFrom r = .other) (level : next.errand = .other) :
    (parkThen record next).errand = .other := by
  cases record with
  | none => exact level
  | some r => exact other r

theorem parkThen_ne_outside {record : Option RecordId} {next : Point} (away : next ≠ .outside) :
    parkThen record next ≠ .outside := by
  cases record with
  | none => exact away
  | some r => nofun

theorem errand_unparkThen {record : Option RecordId} {next : Point} (away : next ≠ .outside)
    (level : next.errand = .other) :
    (unparkThen record next).errand = .other ∧ unparkThen record next ≠ .outside := by
  cases record with
  | none => exact ⟨level, away⟩
  | some r => exact ⟨rfl, nofun⟩

theorem errand_of_afterStop {record : Option RecordId} {next : Point}
    (after : Point.AfterStop record next) : next.errand = .other ∧ next ≠ .outside := by
  cases after with
  | releasing | holding => exact ⟨rfl, nofun⟩

theorem progress_goto {t : Handshake} {q : Point} (away : q ≠ .outside)
    (same : q.errand = (s.points i).errand) (scopes : t.scopes = s.scopes) :
    s.Progress i (t.goto i q) := .goes (by rwa [points_goto]) (by rwa [points_goto]) scopes

theorem Moves.progress {p q : Point} (moves : s.Moves i p q) (here : s.points i = p)
    (away : p ≠ .outside) : s.Progress i (s.goto i q) := by
  cases moves with
  | enters | leaves | polls | asks => exact absurd rfl away
  | shows | nests | stays | sees | misses | retries | finishes =>
    exact progress_goto nofun (by rw [here]; rfl) rfl
  | meets | collects | stops =>
    refine progress_goto (parkThen_ne_outside nofun) ?_ rfl
    rw [here]
    exact errand_parkThen (fun _ => rfl) rfl
  | passes => exact .ends (points_goto _ _ _) (.inr ⟨_, by rw [here]; rfl⟩) rfl
  | strays shallow => exact .strays here (points_goto _ _ _) shallow rfl

/-- An access goes on with what its thread has set out to do, or the call comes back. -/
theorem Turn.progress (turn : s.Turn i t) (away : s.points i ≠ .outside)
    (possible : (s.points i).IsPossible) : s.Progress i t := by
  cases turn with
  | rests here | creates here | detaches here => exact absurd here away
  | moves here moves => exact moves.progress here (here ▸ away)
  | heeds here | captures here | dips here | returns here | registers here | unregisters here
  | requests here | achieves here => exact progress_goto nofun (by rw [here]; rfl) rfl
  | @parks r next here called =>
    rw [here] at possible
    have level : next ≠ .outside ∧ next.errand = next.errandFrom r := by
      cases possible with
      | outside => exact absurd rfl called.1
      | leaving => exact absurd rfl (called.2 r)
      | blocked | requesting => exact ⟨nofun, rfl⟩
    exact progress_goto level.1 (by rw [here]; exact level.2) rfl
  | enters here own =>
    rw [here] at possible
    cases possible with
    | outside => exact .enters here (points_goto _ _ _) rfl
    | leaving => exact .pauses (by rw [here]; rfl) (points_goto _ _ _) rfl
    | blocked | requesting => simp at own
  | leavesInner here deep =>
    exact .leaves (.inl ⟨here, by omega⟩) (points_goto _ _ _) rfl
  | leavesOuter here => exact .leaves (.inr here) (points_goto _ _ _) rfl
  | @unparks r next here =>
    rw [here] at possible
    have level : next ≠ .outside ∧ next.errand = .other := by
      cases possible with
      | releasing | holding => exact ⟨nofun, rfl⟩
    exact progress_goto level.1 (by rw [here]; exact level.2) rfl
  | locks here free locks =>
    cases locks with
    | acquires | waits => exact progress_goto nofun (by rw [here]; rfl) rfl
    | wakes =>
      have holding : ∀ {record task}, Point.holding record task ≠ .outside := nofun
      obtain ⟨level, there⟩ := errand_unparkThen holding rfl
      exact progress_goto there (by rw [here]; exact level) rfl
  | unlocks here unlocks =>
    cases unlocks with
    | releases => exact .ends (points_goto _ _ _) (.inl (by rw [here]; rfl)) rfl
    | leaves => exact progress_goto nofun (by rw [here]; rfl) rfl
  | resumes here idle resumes =>
    rw [here] at possible
    cases resumes with
    | gives | ends =>
      obtain ⟨other, away⟩ := errand_of_afterStop possible
      obtain ⟨level, there⟩ := errand_unparkThen away other
      exact progress_goto there (by rw [here]; exact level) rfl

theorem Begins.errand (begins : s.Begins i c t) (here : s.points i = .outside) :
    t.scopes = s.scopes ∧
      (t.points i = .outside ∧ c.errand = .other ∨
        t.points i ≠ .outside ∧ (t.points i).errand = c.errand) := by
  cases begins with
  | known | gone => exact ⟨rfl, .inl ⟨here, rfl⟩⟩
  | registers | unregisters | enters | leaves | polls | allocates =>
    refine ⟨rfl, .inr ?_⟩
    rw [points_goto]
    exact ⟨nofun, rfl⟩
  | asks needs =>
    refine ⟨rfl, .inr ?_⟩
    rw [points_goto]
    refine ⟨nofun, ?_⟩
    cases c <;> simp [Call.task?] at needs <;> rfl

section Histories

variable {may : Handshake → ThreadId → Call → Prop} {h : Trace}

theorem Traced.reachable (traced : Traced may s h) : Reachable may s := by
  induction traced with
  | start => exact .start
  | call i c before allowed taken ih => exact .call i c ih allowed taken
  | advance i now choice before shown taken ih => exact .advance i now choice ih shown taken

theorem Reachable.exists_traced (reachable : Reachable may s) : ∃ h, Traced may s h := by
  induction reachable with
  | start => exact ⟨{}, .start⟩
  | call i c before allowed taken ih =>
    obtain ⟨h, traced⟩ := ih
    exact ⟨_, .call i c traced allowed taken⟩
  | advance i now choice before shown taken ih =>
    obtain ⟨h, traced⟩ := ih
    exact ⟨_, .advance i now choice traced shown taken⟩

end Histories

def playTurn (may : Handshake → ThreadId → Call → Prop) [∀ s i c, Decidable (may s i c)]
    (now : Handshake × Trace) : ThreadId × (Call ⊕ Addr) → Option (Handshake × Trace)
  | (i, .inl c) =>
    if may now.1 i c then (now.1.call i c).map fun t => (t, now.2.begin i c now.1 t) else none
  | (i, .inr sp) =>
    if sp = 0 then none
    else (now.1.advance i { sp } true).map fun t => (t, now.2.proceed i { sp } now.1 t)

def play (may : Handshake → ThreadId → Call → Prop) [∀ s i c, Decidable (may s i c)]
    (turns : List (ThreadId × (Call ⊕ Addr))) (now : Handshake × Trace) :
    Option (Handshake × Trace) :=
  turns.foldlM (playTurn may) now

def accesses (n : Nat) (i : ThreadId) (sp : Addr) : List (ThreadId × (Call ⊕ Addr)) :=
  List.replicate n (i, .inr sp)

theorem traced_of_play {may : Handshake → ThreadId → Call → Prop} [∀ s i c, Decidable (may s i c)]
    {turns : List (ThreadId × (Call ⊕ Addr))} {now later : Handshake × Trace}
    (played : play may turns now = some later) (traced : Traced may now.1 now.2) :
    Traced may later.1 later.2 := by
  induction turns generalizing now with
  | nil =>
    obtain rfl := Option.some.inj played
    exact traced
  | cons turn turns ih =>
    obtain ⟨next, first, rest⟩ := Option.bind_eq_some_iff.1 (List.foldlM_cons.symm.trans played)
    refine ih rest ?_
    obtain ⟨i, c | sp⟩ := turn
    · simp only [playTurn] at first
      split at first
      · next allowed =>
        obtain ⟨t, taken, rfl⟩ := Option.map_eq_some_iff.1 first
        exact .call i c traced allowed taken
      · nomatch first
    · simp only [playTurn] at first
      split at first
      · nomatch first
      · next nonzero =>
        obtain ⟨t, taken, rfl⟩ := Option.map_eq_some_iff.1 first
        exact .advance i _ true traced (by simpa [Snapshot.isCaptured] using nonzero) taken

instance decidableAnyCall (s : Handshake) (i : ThreadId) (c : Call) : Decidable (anyCall s i c) :=
  inferInstanceAs (Decidable True)

instance decidableAttachedCall (s : Handshake) (i : ThreadId) (c : Call) :
    Decidable (attachedCall s i c) :=
  inferInstanceAs (Decidable (∀ r ∈ c.handle?, (s.threads.record? r).any (·.attached) = true))

end Handshake

end MarkSweep
