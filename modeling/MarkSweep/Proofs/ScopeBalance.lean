import MarkSweep.Proofs.HandshakeVisits

set_option autoImplicit false

/-!
# The balance of scopes

Every call leaves the records of its thread in as many scopes as it found them in, but for an entry
and an exit, which add and take away one. So the depth of a record is the number of entries less the
number of exits whenever its thread runs code of its own, and while a scope is open the snapshot is
the one that the thread took when it entered the outermost.
-/

namespace MarkSweep

namespace Call

variable {c : Call} {r : RecordId}

theorem eq_enter (errand : c.errand = .enter r) : c = .enter r := by
  cases c <;> simp_all [Call.errand]

theorem eq_poll (errand : c.errand = .poll r) : c = .poll r := by
  cases c <;> simp_all [Call.errand]

theorem eq_leave (errand : c.errand = .leave r) : c = .leave r := by
  cases c <;> simp_all [Call.errand]

theorem ne_of_errand_other (errand : c.errand = .other) : c ≠ .enter r ∧ c ≠ .leave r := by
  cases c <;> simp_all [Call.errand]

theorem newDepth_of_ne (enters : ∀ r', c ≠ .enter r') (leaves : ∀ r', c ≠ .leave r') (n : Nat) :
    c.newDepth r n = n := by
  cases c with
  | enter r' => exact absurd rfl (enters r')
  | leave r' => exact absurd rfl (leaves r')
  | _ => rfl

theorem refusal?_of_ne (leaves : ∀ r', c ≠ .leave r') (before : Handshake) :
    c.refusal? before = none := by
  cases c with
  | leave r' => exact absurd rfl (leaves r')
  | _ => rfl

end Call

namespace Handshake

variable {s t : Handshake} {i j : ThreadId} {r : RecordId} {c : Call} {p : Pending} {h : Trace}

/-- Whether no other thread has a record. -/
def Alone (s : Handshake) (i : ThreadId) (r : RecordId) : Prop := ∀ j, s.Owns j r → j = i

theorem Owns.alone (owns : s.Owns i r) : s.Alone i r := fun _ other => other.unique owns

theorem Turn.alone (turn : s.Turn j t) (alone : t.Alone i r) : s.Alone i r := fun k owns =>
  alone k (turn.owns owns)

theorem Orderly.depth_eq_scopes (ordered : s.Orderly) (here : s.points i = .outside)
    (alone : s.Alone i r) : s.depth r = s.scopes r := by
  cases found : s.threads.record? r with
  | none =>
    rw [ordered.unborn r found]
    simp [depth, Threads.depth, found]
  | some x =>
    have owns : s.Owns x.thread r := Option.map_eq_some_iff.2 ⟨x, found, rfl⟩
    have balance := ordered.balance _ r owns
    obtain rfl := alone _ owns
    have idle : Point.outside.raised r = 0 ∧ Point.outside.lowered r = 0 :=
      raised_of_level rfl rfl
    rwa [here, idle.1, idle.2] at balance

theorem Orderly.depth_of_level (ordered : s.Orderly) {q : Point} (here : s.points i = q)
    (busy : q.record? = some r) (raised : q.isRaised = false) (lowered : q.isLowered = false) :
    s.depth r = s.scopes r := by
  subst here
  have balance := ordered.balance i r (ordered.owner i r busy)
  rwa [(raised_of_level raised lowered).1, (raised_of_level raised lowered).2] at balance

theorem Orderly.scopes_of_leaves (ordered : s.Orderly)
    (here : s.points i = .leaving r ∧ s.depth r ≠ 0 ∨ s.points i = .checking r) :
    s.scopes r ≠ 0 := by
  obtain ⟨here, deep⟩ | here := here
  · rwa [← ordered.depth_of_level here rfl rfl rfl]
  · have balance := ordered.balance i r (ordered.owner i r (by rw [here]; rfl))
    simp [here, Point.lowered, Point.raised, Point.record?, Point.isLowered, Point.isRaised]
      at balance
    omega

/-- How many scopes of a record a thread has entered in a call and not left. Only a poll enters one
that it leaves itself. -/
def inner (c : Call) (now : Point) (r : RecordId) : Nat :=
  if c = .poll r ∧ now.errand = .leave r then 1 else 0

/-- What holds of a call that is under way. -/
structure Underway (s : Handshake) (i : ThreadId) (p : Pending) : Prop where
  away : s.points i ≠ .outside
  mine : ∀ r, p.call.handle? = some r → s.Owns i r
  errand : (s.points i).errand = p.call.errand ∨
    ∃ r, p.call = .poll r ∧ (s.points i).errand = .leave r
  scopes : ∀ r, s.Alone i r → s.scopes r = p.before.depth r + inner p.call (s.points i) r
  shown : ∀ r, p.call = .enter r → s.points i = .raising r .outside → p.before.depth r = 0 →
    p.shown = some (s.snapshot r)

/-- What a call that comes back should have done to the scopes, and with which error. -/
def Settles (s : Handshake) (i : ThreadId) (p : Pending) (t : Handshake) : Prop :=
  (∀ r, s.Alone i r → t.scopes r = p.call.newDepth r (p.before.depth r)) ∧
    s.refusal? i = p.call.refusal? p.before

theorem inner_of_errand {now : Point} (same : now.errand = c.errand) : inner c now r = 0 := by
  refine if_neg fun ⟨poll, leave⟩ => ?_
  subst poll
  nomatch same.symm.trans leave

theorem refusal?_of_shallow (here : s.points i = .leaving r) (shallow : s.depth r = 0) :
    s.refusal? i = some .unbalancedBlocking := by
  unfold refusal? Threads.unpark
  rw [here]
  cases found : s.threads.record? r with
  | none => simp only [found]
  | some x =>
    have zero : x.depth = 0 := by simpa [depth, Threads.depth, found] using shallow
    simp only [found, ThreadRecord.unpark, zero, if_true]

theorem refusal?_of_deep (deep : ∀ r, s.points i = .leaving r → s.depth r ≠ 0) :
    s.refusal? i = none := by
  unfold refusal?
  split
  · next r here =>
    have deep := deep r here
    unfold Threads.unpark
    cases found : s.threads.record? r with
    | none => simp [depth, Threads.depth, found] at deep
    | some x =>
      have nonzero : x.depth ≠ 0 := by simpa [depth, Threads.depth, found] using deep
      simp only [ThreadRecord.unpark, nonzero, if_false]
  · rfl

theorem refusal?_of_errand (other : ∀ r, (s.points i).errand ≠ .leave r) :
    s.refusal? i = none :=
  refusal?_of_deep fun r here => absurd (by rw [here]; rfl) (other r)

theorem underway_of_call (ordered : s.Orderly) (taken : s.call i c = some t)
    (away : t.points i ≠ .outside) :
    t.Underway i { call := c, before := s, shown := none } := by
  obtain ⟨here, mine, begins⟩ := call_cases taken
  have turn := turn_of_call taken
  obtain ⟨scopes, ⟨there, -⟩ | ⟨-, errand⟩⟩ := begins.errand here
  · exact absurd there away
  · refine ⟨away, fun r handle => turn.owns (mine r handle), .inl errand, fun r alone => ?_, ?_⟩
    · rw [scopes, inner_of_errand errand, Nat.add_zero]
      exact (ordered.depth_eq_scopes here (turn.alone alone)).symm
    · intro r _ there
      have quiet := (turn.begins here).2.2
      rw [there] at quiet
      nomatch quiet

theorem snapshot_of_capturing (owns : s.Owns i r) {next : Point} {now : Snapshot} {choice : Bool}
    (here : s.points i = .capturing r next) (taken : s.advance i now choice = some t) :
    t.snapshot r = now := by
  obtain ⟨x, found, -⟩ := exists_record owns
  simp only [Handshake.advance, here] at taken
  obtain rfl := Option.some.inj taken
  change (((s.threads.modify r _).record? r).map _).getD {} = now
  rw [record?_modify, if_pos rfl, found]
  rfl

theorem updated_scopes {r' : RecordId} {n : Nat} (f : Nat → Nat) (before : s.scopes r' = n) :
    updated s.scopes r (f (s.scopes r)) r' = if r = r' then f n else n := by
  split
  · next same =>
    subst same
    rw [updated_same, before]
  · next other => rw [updated_other _ (Ne.symm other), before]

namespace Underway

theorem errand_eq (underway : s.Underway i p) (apart : ∀ r, (s.points i).errand ≠ .leave r) :
    (s.points i).errand = p.call.errand :=
  underway.errand.resolve_right fun ⟨r, _, leave⟩ => apart r leave

theorem scopes_of_errand (underway : s.Underway i p)
    (same : (s.points i).errand = p.call.errand) (alone : s.Alone i r) :
    s.scopes r = p.before.depth r := by
  rw [underway.scopes r alone, inner_of_errand same, Nat.add_zero]

theorem leaves_cases (underway : s.Underway i p) (here : (s.points i).errand = .leave r) :
    p.call = .leave r ∧ (∀ r', s.Alone i r' → s.scopes r' = p.before.depth r') ∨
      p.call = .poll r ∧ ∀ r', s.Alone i r' →
        s.scopes r' = p.before.depth r' + if r = r' then 1 else 0 := by
  obtain same | ⟨r', poll, leave⟩ := underway.errand
  · exact .inl ⟨Call.eq_leave (same.symm.trans here), fun r' => underway.scopes_of_errand same⟩
  · obtain rfl := Errand.leave.inj (leave.symm.trans here)
    refine .inr ⟨poll, fun r'' alone => ?_⟩
    rw [underway.scopes r'' alone, inner, poll, here]
    simp

theorem settles_of_ends (underway : s.Underway i p)
    (level : (s.points i).errand = .other ∨ ∃ r, (s.points i).errand = .poll r)
    (scopes : t.scopes = s.scopes) : s.Settles i p t := by
  have apart : ∀ r, (s.points i).errand ≠ .leave r := fun r leave => by
    obtain level | ⟨r', level⟩ := level <;> nomatch leave.symm.trans level
  have same := underway.errand_eq apart
  have enters : ∀ r, p.call ≠ .enter r := fun r enter => by
    rw [enter] at same
    obtain level | ⟨r', level⟩ := level <;> nomatch same.symm.trans level
  have leaves : ∀ r, p.call ≠ .leave r := fun r leave => apart r (by rw [same, leave]; rfl)
  refine ⟨fun r alone => ?_, ?_⟩
  · rw [scopes, underway.scopes_of_errand same alone, Call.newDepth_of_ne enters leaves]
  · rw [refusal?_of_errand apart, Call.refusal?_of_ne leaves]

/-- A thread strays only where it has tried to leave a scope that was never entered. -/
theorem settles_of_strays (underway : s.Underway i p) (ordered : s.Orderly)
    (here : s.points i = .leaving r) (shallow : s.depth r = 0) (scopes : t.scopes = s.scopes) :
    s.Settles i p t := by
  have owns := ordered.owner i r (by rw [here]; rfl)
  have zero : s.scopes r = 0 := by rw [← ordered.depth_of_level here rfl rfl rfl, shallow]
  obtain ⟨leave, before⟩ | ⟨poll, before⟩ := underway.leaves_cases (by rw [here]; rfl)
  · have none : p.before.depth r = 0 := by rw [← before r owns.alone, zero]
    rw [Settles, refusal?_of_shallow here shallow, leave]
    refine ⟨fun r' alone => ?_, by simp [Call.refusal?, none]⟩
    rw [scopes, before r' alone, Call.newDepth]
    split
    · next same => rw [← same, none]
    · rfl
  · have one := before r owns.alone
    simp [zero] at one

theorem settles_of_enters (underway : s.Underway i p) (here : s.points i = .raising r .outside)
    (scopes : t.scopes = updated s.scopes r (s.scopes r + 1)) : s.Settles i p t := by
  have apart : ∀ r', (s.points i).errand ≠ .leave r' := by
    rw [here]
    nofun
  have same := underway.errand_eq apart
  have enter : p.call = .enter r := Call.eq_enter (same.symm.trans (by rw [here]; rfl))
  refine ⟨fun r' alone => ?_, ?_⟩
  · rw [scopes, enter]
    exact updated_scopes (· + 1) (underway.scopes_of_errand same alone)
  · rw [refusal?_of_errand apart, enter]
    rfl

theorem settles_of_leaves (underway : s.Underway i p) (ordered : s.Orderly)
    (here : s.points i = .leaving r ∧ s.depth r ≠ 0 ∨ s.points i = .checking r)
    (scopes : t.scopes = updated s.scopes r (s.scopes r - 1)) : s.Settles i p t := by
  have leaving : (s.points i).errand = .leave r ∧ (s.points i).record? = some r := by
    obtain ⟨here, -⟩ | here := here <;> rw [here] <;> exact ⟨rfl, rfl⟩
  have owns : s.Owns i r := ordered.owner i r leaving.2
  have fine : s.refusal? i = none := refusal?_of_deep fun r' there => by
    obtain ⟨here, deep⟩ | here := here
    · obtain rfl := Point.leaving.inj (here.symm.trans there)
      exact deep
    · nomatch here.symm.trans there
  obtain ⟨leave, before⟩ | ⟨poll, before⟩ := underway.leaves_cases leaving.1
  · have inside := before r owns.alone ▸ ordered.scopes_of_leaves here
    rw [Settles, fine, leave, Call.refusal?, if_neg inside]
    refine ⟨fun r' alone => ?_, rfl⟩
    rw [scopes]
    exact updated_scopes (· - 1) (before r' alone)
  · -- The scope is the one that the thread entered at the poll.
    rw [Settles, fine, poll]
    refine ⟨fun r' alone => ?_, rfl⟩
    rw [scopes]
    change updated s.scopes r (s.scopes r - 1) r' = p.before.depth r'
    by_cases same : r' = r
    · subst same
      rw [updated_same, before r' alone, if_pos rfl, Nat.add_sub_cancel]
    · rw [updated_other _ same, before r' alone, if_neg (Ne.symm same), Nat.add_zero]

theorem settles (underway : s.Underway i p) (ordered : s.Orderly) (progress : s.Progress i t)
    (there : t.points i = .outside) : s.Settles i p t := by
  cases progress with
  | goes away => exact absurd there away
  | pauses _ there' => nomatch there.symm.trans there'
  | ends _ level scopes => exact underway.settles_of_ends level scopes
  | strays here _ shallow scopes => exact underway.settles_of_strays ordered here shallow scopes
  | enters here _ scopes => exact underway.settles_of_enters here scopes
  | leaves here _ scopes => exact underway.settles_of_leaves ordered here scopes

theorem turn_other (underway : s.Underway j p) (ordered : s.Orderly) (turn : s.Turn i t)
    (other : j ≠ i) : t.Underway j p := by
  have point := turn.points_other other
  constructor
  · rw [point]
    exact underway.away
  · exact fun r handle => turn.owns (underway.mine r handle)
  · rw [point]
    exact underway.errand
  · intro r alone
    have apart : (s.points i).record? ≠ some r := fun busy =>
      other (alone i (turn.owns (ordered.owner i r busy))).symm
    rw [point, turn.scopes_untouched apart]
    exact underway.scopes r (turn.alone alone)
  · intro r enter there shallow
    have owns := underway.mine r (by rw [enter]; rfl)
    rw [turn.snapshot_untouched owns (ordered.apart owns other)]
    exact underway.shown r enter (point ▸ there) shallow

/-- Where a thread is about to open the outermost scope, it has just taken the snapshot. -/
theorem shown_of_advance (underway : s.Underway i p) (ordered : s.Orderly) {now : Snapshot}
    {choice : Bool} (shown : now.isCaptured = true) (taken : s.advance i now choice = some t)
    (enter : p.call = .enter r) (there : t.points i = .raising r .outside)
    (shallow : p.before.depth r = 0) : (p.see i now s).shown = some (t.snapshot r) := by
  have turn := turn_of_advance shown taken
  obtain plain | notes := turn.notes (ordered.possible i)
  · rw [there] at plain
    nomatch plain
  · cases notes with
    | nests here deep there' =>
      obtain ⟨rfl, rfl⟩ := Point.raising.inj (there'.symm.trans there)
      have owns := ordered.owner i _ (by rw [here]; rfl)
      have level := ordered.depth_of_level here rfl rfl rfl
      have same : (s.points i).errand = p.call.errand := by
        rw [here, enter]
        rfl
      rw [level, underway.scopes_of_errand same owns.alone] at deep
      exact absurd shallow deep
    | captures here there' =>
      obtain ⟨rfl, rfl⟩ := Point.raising.inj (there'.symm.trans there)
      have owns := ordered.owner i _ (by rw [here]; rfl)
      rw [snapshot_of_capturing owns here taken, Pending.see, shows?, here]
      rfl
    | shows _ _ there' | dips _ _ there' | stays _ there' | surveys there' | sees _ _ there'
    | achieves _ there' => nomatch there'.symm.trans there

theorem shown_of_finish (underway : s.Underway i p) (ordered : s.Orderly) (turn : s.Turn i t)
    {now : Snapshot} (there : t.points i = .outside) (enter : p.call = .enter r)
    (shallow : p.before.depth r = 0) : (p.see i now s).shown = some (t.snapshot r) := by
  have same : (s.points i).errand = .enter r := by
    obtain same | ⟨r', poll, -⟩ := underway.errand
    · rw [same, enter]
      rfl
    · nomatch poll.symm.trans enter
  cases turn.progress underway.away (ordered.possible i) with
  | @enters r' here =>
    rw [here] at same
    obtain rfl := Errand.enter.inj same
    have busy : (s.points i).record? = some r' := by rw [here]; rfl
    obtain ⟨kept, -⟩ | ⟨⟨next, other⟩, -⟩ := turn.snapshot (ordered.owner i r' busy) busy
    · rw [kept, ← underway.shown r' enter here shallow, Pending.see, shows?, here]
      rfl
    · nomatch here.symm.trans other
  | goes away => exact absurd there away
  | ends _ level => obtain level | ⟨r', level⟩ := level <;> nomatch same.symm.trans level
  | strays here =>
    rw [here] at same
    nomatch same
  | pauses here => nomatch same.symm.trans here
  | leaves here => obtain ⟨here, -⟩ | here := here <;> rw [here] at same <;> nomatch same

theorem advance (underway : s.Underway i p) (ordered : s.Orderly) {now : Snapshot}
    {choice : Bool} (shown : now.isCaptured = true) (taken : s.advance i now choice = some t)
    (away : t.points i ≠ .outside) : t.Underway i (p.see i now s) := by
  have turn := turn_of_advance shown taken
  have mine : ∀ r, p.call.handle? = some r → t.Owns i r := fun r handle =>
    turn.owns (underway.mine r handle)
  have seen : ∀ r, p.call = .enter r → t.points i = .raising r .outside →
      p.before.depth r = 0 → (p.see i now s).shown = some (t.snapshot r) := fun r =>
    underway.shown_of_advance ordered shown taken
  cases turn.progress underway.away (ordered.possible i) with
  | goes _ same scopes =>
    refine ⟨away, mine, ?_, fun r alone => ?_, seen⟩
    · rw [same]
      exact underway.errand
    · rw [scopes, inner, same]
      exact underway.scopes r (turn.alone alone)
  | @pauses r here there scopes =>
    have same := underway.errand_eq fun r' leave => nomatch leave.symm.trans here
    have poll : p.call = .poll r := Call.eq_poll (same.symm.trans here)
    refine ⟨away, mine, .inr ⟨r, poll, by rw [there]; rfl⟩, fun r' alone => ?_, seen⟩
    have before := underway.scopes_of_errand same (turn.alone alone)
    rw [scopes, there]
    change _ = p.before.depth r' + inner p.call (.leaving r) r'
    rw [poll, inner, updated_scopes (· + 1) before]
    by_cases same : r = r'
    · simp [same, Point.errand]
    · simp [same]
  | ends there | strays _ there | enters _ there | leaves _ there => exact absurd there away

end Underway

/-- The depth of a record when its thread last ran code of its own. -/
def resting (s : Handshake) (h : Trace) (i : ThreadId) (r : RecordId) : Nat :=
  match h.pending i with
  | some p => p.before.depth r
  | none => s.scopes r

/-- Whether a history is that of a handshake, as far as scopes go. -/
structure Kept (s : Handshake) (h : Trace) : Prop where
  idle : ∀ i, h.pending i = none → s.points i = .outside
  underway : ∀ i p, h.pending i = some p → s.Underway i p
  counts : ∀ i r, s.Alone i r → s.resting h i r + h.exits r = h.entries r
  outermost : ∀ r, h.exits r < h.entries r →
    ∃ v, h.outermost? r = some v ∧ v.shown = some (s.snapshot r)
  balanced : ∀ v ∈ h.visits, v.IsBalanced

/-- A call counts as an entry or an exit where it changes the depth. -/
theorem count_of_newDepth {before : Handshake} {exits entries : Nat}
    (counts : before.depth r + exits = entries) :
    c.newDepth r (before.depth r) +
        (exits + if c = .leave r ∧ (c.refusal? before).isNone = true then 1 else 0) =
      entries + if c = .enter r then 1 else 0 := by
  cases c with
  | enter r' =>
    by_cases same : r' = r
    · simp [Call.newDepth, same]
      omega
    · simpa [Call.newDepth, same] using counts
  | leave r' =>
    by_cases same : r' = r
    · subst same
      by_cases zero : before.depth r' = 0
      · simp [Call.newDepth, Call.refusal?, zero] at counts ⊢
        exact counts
      · simp [Call.newDepth, Call.refusal?, zero]
        omega
    · simpa [Call.newDepth, same] using counts
  | _ => simpa [Call.newDepth] using counts

theorem entries_finish (h : Trace) (v : Visit) (r : RecordId) :
    (h.finish v).entries r = h.entries r + if v.call = .enter r then 1 else 0 := by
  simp [Trace.entries, Trace.finish, List.countP_cons]

theorem exits_finish (h : Trace) (v : Visit) (r : RecordId) : (h.finish v).exits r =
    h.exits r + if v.call = .leave r ∧ v.refusal.isNone = true then 1 else 0 := by
  simp [Trace.exits, Trace.finish, List.countP_cons]

namespace Kept

theorem resting_le (kept : s.Kept h) (alone : s.Alone i r) : s.resting h i r ≤ s.scopes r := by
  unfold resting
  split
  · next p pending =>
    rw [(kept.underway i p pending).scopes r alone]
    exact Nat.le_add_right _ _
  · exact Nat.le_refl _

theorem depth_eq_resting (kept : s.Kept h) (ordered : s.Orderly) (here : s.points i = .outside)
    (alone : s.Alone i r) : s.depth r = s.resting h i r := by
  unfold resting
  split
  · next p pending => exact absurd here (kept.underway i p pending).away
  · exact ordered.depth_eq_scopes here alone

theorem exists_owner (kept : s.Kept h) (ordered : s.Orderly) (opened : h.exits r < h.entries r) :
    ∃ j, s.Owns j r := by
  cases found : s.threads.record? r with
  | some x => exact ⟨x.thread, Option.map_eq_some_iff.2 ⟨x, found, rfl⟩⟩
  | none =>
    have alone : s.Alone 0 r := fun j owns => by
      obtain ⟨x, there, -⟩ := exists_record owns
      nomatch there.symm.trans found
    have counts := kept.counts 0 r alone
    have few := kept.resting_le alone
    have zero := ordered.unborn r found
    omega

theorem snapshot_of_turn (kept : s.Kept h) (ordered : s.Orderly) (turn : s.Turn i t)
    (opened : h.exits r < h.entries r) : t.snapshot r = s.snapshot r := by
  obtain ⟨j, owns⟩ := kept.exists_owner ordered opened
  by_cases busy : (s.points i).record? = some r
  · have mine := ordered.owner i r busy
    obtain ⟨same, -⟩ | ⟨⟨next, here⟩, -⟩ := turn.snapshot mine busy
    · exact same
    · have counts := kept.counts i r mine.alone
      have few := kept.resting_le mine.alone
      have level := ordered.depth_of_level here rfl rfl rfl
      have shallow := ordered.shallow i r next here
      omega
  · exact turn.snapshot_untouched owns busy

theorem resting_other (turn : s.Turn i t) (ordered : s.Orderly) {k : Trace} (other : j ≠ i)
    (pending : k.pending j = h.pending j) (alone : t.Alone j r) :
    t.resting k j r = s.resting h j r := by
  have apart : (s.points i).record? ≠ some r := fun busy =>
    other (alone i (turn.owns (ordered.owner i r busy))).symm
  unfold resting
  rw [pending, turn.scopes_untouched apart]

theorem await (kept : s.Kept h) (ordered : s.Orderly) (turn : s.Turn i t)
    (underway : t.Underway i p) (rests : ∀ r, s.Alone i r → p.before.depth r = s.resting h i r) :
    t.Kept (h.await i p) := by
  have mine : (h.await i p).pending i = some p := updated_same _ _ _
  have others : ∀ {j}, j ≠ i → (h.await i p).pending j = h.pending j := fun other =>
    updated_other _ other _
  constructor
  · intro j pending
    have other : j ≠ i := by
      rintro rfl
      nomatch mine.symm.trans pending
    rw [turn.points_other other]
    exact kept.idle j (others other ▸ pending)
  · intro j q pending
    by_cases same : j = i
    · subst same
      obtain rfl := Option.some.inj (mine.symm.trans pending)
      exact underway
    · exact (kept.underway j q (others same ▸ pending)).turn_other ordered turn same
  · intro j r alone
    have counts := kept.counts j r (turn.alone alone)
    by_cases same : j = i
    · subst same
      rw [resting, mine]
      rw [← rests r (turn.alone alone)] at counts
      exact counts
    · rw [resting_other turn ordered same (others same) alone]
      exact counts
  · intro r opened
    rw [kept.snapshot_of_turn ordered turn opened]
    exact kept.outermost r opened
  · exact kept.balanced

theorem finish (kept : s.Kept h) (ordered : s.Orderly) (turn : s.Turn i t) {v : Visit}
    (thread : v.thread = i) (there : t.points i = .outside)
    (mine : ∀ r, v.call.handle? = some r → s.Owns i r)
    (rests : ∀ r, s.Alone i r → v.before.depth r = s.resting h i r)
    (depths : ∀ r, s.Alone i r → t.scopes r = v.call.newDepth r (v.before.depth r))
    (refused : v.refusal = v.call.refusal? v.before) (after : v.after = t)
    (seen : ∀ r, v.call = .enter r → v.before.depth r = 0 → v.shown = some (t.snapshot r)) :
    t.Kept (h.finish v) := by
  subst thread
  have done : (h.finish v).pending v.thread = none := updated_same _ _ _
  have others : ∀ {j}, j ≠ v.thread → (h.finish v).pending j = h.pending j := fun other =>
    updated_other _ other _
  constructor
  · intro j pending
    by_cases same : j = v.thread
    · exact same ▸ there
    · rw [turn.points_other same]
      exact kept.idle j (others same ▸ pending)
  · intro j q pending
    have other : j ≠ v.thread := by
      rintro rfl
      nomatch done.symm.trans pending
    exact (kept.underway j q (others other ▸ pending)).turn_other ordered turn other
  · intro j r alone
    have counts := kept.counts j r (turn.alone alone)
    rw [entries_finish, exits_finish]
    by_cases same : j = v.thread
    · subst same
      rw [← rests r (turn.alone alone)] at counts
      rw [resting, done, depths r (turn.alone alone), refused]
      exact count_of_newDepth counts
    · have foreign : v.call.handle? ≠ some r := fun handle =>
        same (alone _ (turn.owns (mine r handle))).symm
      have apart : v.call ≠ .enter r ∧ v.call ≠ .leave r := by
        constructor <;> intro call <;> exact foreign (by rw [call]; rfl)
      rw [resting_other turn ordered same (others same) alone]
      simpa [apart] using counts
  · intro r opened
    by_cases first : v.call = .enter r ∧ v.before.depth r = 0
    · exact ⟨v, List.find?_cons_of_pos (by simpa using first), seen r first.1 first.2⟩
    · -- The scope was open before this call, so its snapshot has stayed.
      have before : h.exits r < h.entries r := by
        by_cases enter : v.call = .enter r
        · have alone := (mine r (by rw [enter]; rfl)).alone
          have counts := kept.counts _ r alone
          rw [← rests r alone] at counts
          have deep : v.before.depth r ≠ 0 := fun zero => first ⟨enter, zero⟩
          omega
        · rw [entries_finish, exits_finish, if_neg enter] at opened
          omega
      rw [kept.snapshot_of_turn ordered turn before]
      obtain ⟨w, found, shown⟩ := kept.outermost r before
      exact ⟨w, (List.find?_cons_of_neg (by simpa using first)).trans found, shown⟩
  · refine List.forall_mem_cons.2 ⟨⟨fun r owns => ?_, refused⟩, kept.balanced⟩
    rw [after] at owns ⊢
    have alone : t.Alone v.thread r := Owns.alone owns
    rw [(ordered.turn turn).depth_eq_scopes there alone, depths r (turn.alone alone)]

theorem call (kept : s.Kept h) (ordered : s.Orderly) (taken : s.call i c = some t) :
    t.Kept (h.begin i c s t) := by
  obtain ⟨here, mine, begins⟩ := call_cases taken
  have turn := turn_of_call taken
  have rests : ∀ r, s.Alone i r → s.depth r = s.resting h i r := fun r =>
    kept.depth_eq_resting ordered here
  unfold Trace.begin
  split
  · next there =>
    obtain ⟨scopes, ⟨-, errand⟩ | ⟨away, -⟩⟩ := begins.errand here
    · have apart : ∀ r, c ≠ .enter r ∧ c ≠ .leave r := fun r => Call.ne_of_errand_other errand
      refine kept.finish ordered turn rfl there mine rests (fun r alone => ?_) ?_ rfl ?_
      · rw [scopes, ← ordered.depth_eq_scopes here alone]
        exact (Call.newDepth_of_ne (fun r => (apart r).1) (fun r => (apart r).2) _).symm
      · exact (Call.refusal?_of_ne (fun r => (apart r).2) _).symm
      · exact fun r enter => absurd enter (apart r).1
    · exact absurd there away
  · next away => exact kept.await ordered turn (underway_of_call ordered taken away) rests

theorem advance (kept : s.Kept h) (ordered : s.Orderly) {now : Snapshot} {choice : Bool}
    (shown : now.isCaptured = true) (taken : s.advance i now choice = some t) :
    t.Kept (h.proceed i now s t) := by
  have turn := turn_of_advance shown taken
  cases pending : h.pending i with
  | none => exact absurd (kept.idle i pending) (ne_outside_of_advance taken)
  | some p =>
    have underway := kept.underway i p pending
    have rests : ∀ r, s.Alone i r → p.before.depth r = s.resting h i r := fun r _ => by
      rw [resting, pending]
    unfold Trace.proceed
    rw [pending]
    simp only
    split
    · next there =>
      have progress := turn.progress underway.away (ordered.possible i)
      obtain ⟨depths, refused⟩ := underway.settles ordered progress there
      refine kept.finish ordered turn rfl there underway.mine rests depths refused rfl ?_
      exact fun r => underway.shown_of_finish ordered turn there
    · next away =>
      exact kept.await ordered turn (underway.advance ordered shown taken away) rests

end Kept

theorem kept_start : Kept {} {} where
  idle _ _ := rfl
  underway _ _ pending := nomatch pending
  counts _ _ _ := rfl
  outermost _ opened := nomatch opened
  balanced _ mem := nomatch mem

theorem Traced.kept {may : Handshake → ThreadId → Call → Prop} (traced : Traced may s h) :
    s.Kept h := by
  induction traced with
  | start => exact kept_start
  | call i c before allowed taken ih => exact ih.call before.reachable.orderly taken
  | advance i now choice before shown taken ih =>
    exact ih.advance before.reachable.orderly shown taken

/-- While a thread runs code of its own, the depth of each of its records is the number of entries
less the number of exits. Every call has left the records of its thread as deep as it found them,
but for an entry and an exit, and an exit fails exactly where there is no scope to leave. While a
scope is open, at any time, the snapshot is the one taken at the entry to the outermost. -/
theorem balanced_of_traced {s : Handshake} {h : Trace} (traced : Traced anyCall s h) :
    (∀ i r, s.Owns i r → s.points i = .outside → s.depth r + h.exits r = h.entries r) ∧
    (∀ v ∈ h.visits, v.IsBalanced) ∧
    ∀ r, h.exits r < h.entries r →
      ∃ v, h.outermost? r = some v ∧ v.shown = some (s.snapshot r) := by
  have kept := traced.kept
  refine ⟨fun i r owns here => ?_, kept.balanced, kept.outermost⟩
  rw [kept.depth_eq_resting traced.reachable.orderly here owns.alone]
  exact kept.counts i r owns.alone

/-- A thread enters two scopes and leaves both while another stops the world. It tries to leave once
more, and enters a third scope. -/
def scopeTurns : List (ThreadId × (Call ⊕ Addr)) :=
  (0, .inl .register) :: accesses 3 0 4096 ++
  (1, .inl .register) :: accesses 3 1 4096 ++
  (0, .inl (.enter 0)) :: accesses 3 0 8192 ++
  (0, .inl (.enter 0)) :: accesses 2 0 4096 ++
  (1, .inl (.stopWorld .forever)) :: accesses 9 1 4096 ++
  (0, .inl (.leave 0)) :: accesses 1 0 4096 ++
  (0, .inl (.leave 0)) :: accesses 3 0 4096 ++
  accesses 3 1 4096 ++ accesses 4 0 4096 ++
  (0, .inl (.leave 0)) :: accesses 1 0 4096 ++
  (0, .inl (.enter 0)) :: accesses 3 0 12288

theorem balanced_of_traced_scopes : ∃ s h, Traced anyCall s h ∧ s.Owns 0 0 ∧
    s.points 0 = .outside ∧ h.entries 0 = 3 ∧ h.exits 0 = 2 ∧ s.depth 0 = 1 ∧
    (∃ v ∈ h.visits, v.refusal = some .unbalancedBlocking ∧ v.IsBalanced) ∧
    (s.snapshot 0).sp = 12288 := by
  obtain ⟨⟨s, h⟩, played, owns, here, entries, exits, refused, shown⟩ :
      ∃ now ∈ play anyCall scopeTurns ({}, {}),
        (now.1.threads.record? 0).map (·.thread) = some 0 ∧ now.1.points 0 = .outside ∧
        now.2.entries 0 = 3 ∧ now.2.exits 0 = 2 ∧
        (∃ v ∈ now.2.visits, v.refusal = some .unbalancedBlocking) ∧
        ∀ v ∈ now.2.outermost? 0, v.shown.map (·.sp) = some 12288 := by decide +kernel
  have traced : Traced anyCall s h := traced_of_play played .start
  replace owns : s.Owns 0 0 := owns
  replace here : s.points 0 = .outside := here
  replace entries : h.entries 0 = 3 := entries
  replace exits : h.exits 0 = 2 := exits
  obtain ⟨counts, balanced, outermost⟩ := balanced_of_traced traced
  have count := counts 0 0 owns here
  obtain ⟨v, mem, refused⟩ := refused
  obtain ⟨w, found, taken⟩ := outermost 0 (by omega)
  have sp := shown w found
  rw [taken] at sp
  exact ⟨s, h, traced, owns, here, entries, exits, by omega, ⟨v, mem, refused, balanced v mem⟩,
    Option.some.inj sp⟩

end Handshake

end MarkSweep
