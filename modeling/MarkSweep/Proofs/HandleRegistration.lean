import MarkSweep.Proofs.StopSafety

set_option autoImplicit false

namespace MarkSweep

namespace Point

def task? : Point → Option LockedTask
  | acquiring _ task | blocked _ task | holding _ task => some task
  | entering _ next | capturing _ next | raising _ next | lowering _ next => next.task?
  | _ => none

/-- Whether a thread has the lock, or wants it, without a record. -/
def isUnnamed : Point → Bool
  | acquiring record _ | blocked record _ | holding record _ | requesting record _ _
  | surveying record _ _ _ | retrying record _ _ | stopped record _ => record.isNone
  | _ => false

end Point

def LockedTask.isRegistration : LockedTask → Bool
  | register _ | unregister _ => true
  | _ => false

namespace Handshake

variable {s t : Handshake} {i j : ThreadId} {r : RecordId} {c : Call}

theorem task?_unparkThen {record : Option RecordId} {next : Point} :
    (unparkThen record next).task? = next.task? := by
  cases record <;> rfl

theorem task?_parkThen {record : Option RecordId} {next : Point} :
    (parkThen record next).task? = next.task? := by
  cases record <;> rfl

theorem not_isRegistration_of_afterStop {record : Option RecordId} {next : Point}
    {task : LockedTask} (after : Point.AfterStop record next) (wants : next.task? = some task) :
    task.isRegistration = false := by
  cases after with
  | releasing => nomatch wants
  | holding n =>
    obtain rfl := Option.some.inj wants
    rfl

theorem Turn.task? (turn : s.Turn i t) (away : s.points i ≠ .outside)
    (possible : (s.points i).IsPossible) {task : LockedTask}
    (wants : (t.points i).task? = some task) (changes : task.isRegistration = true) :
    (s.points i).task? = some task := by
  cases turn with
  | rests here | creates here | detaches here => exact absurd here away
  | moves here moves =>
    rw [here] at away ⊢
    rw [points_goto] at wants
    cases moves with
    | enters | leaves | polls | asks => exact absurd rfl away
    | shows | nests => exact wants
    | meets =>
      rw [task?_parkThen] at wants
      exact wants
    | collects =>
      rw [task?_parkThen] at wants
      nomatch wants
    | stops =>
      rw [task?_parkThen] at wants
      nomatch wants
    | passes | strays | stays | finishes | sees | misses | retries => nomatch wants
  | heeds | dips | leavesInner | leavesOuter | returns | registers | unregisters | requests
  | achieves =>
    simp only [points_noteLeft, points_goto] at wants
    nomatch wants
  | captures here | parks here | enters here | unparks here =>
    simp only [points_noteEntered, points_goto] at wants
    rw [here]
    exact wants
  | locks here free locks =>
    rw [points_goto] at wants
    rw [here]
    cases locks with
    | acquires => exact wants
    | wakes =>
      rw [task?_unparkThen] at wants
      exact wants
    | waits => nomatch wants
  | unlocks here unlocks =>
    rw [points_goto] at wants
    cases unlocks <;> nomatch wants
  | resumes here idle resumes =>
    rw [here] at possible
    rw [points_goto] at wants
    cases resumes with
    | gives | ends =>
      rw [task?_unparkThen] at wants
      rw [not_isRegistration_of_afterStop possible wants] at changes
      nomatch changes

theorem Turn.task?_of_task? (turn : s.Turn i t) {task : LockedTask}
    (wants : (s.points i).task? = some task) (changes : task.isRegistration = true)
    (waits : ∀ record, s.points i ≠ .holding record task) : (t.points i).task? = some task := by
  cases turn with
  | rests here => exact wants
  | moves here moves =>
    rw [here] at wants waits
    rw [points_goto]
    cases moves with
    | shows | nests => exact wants
    | meets =>
      rw [task?_parkThen]
      exact wants
    | finishes | collects | stops =>
      obtain rfl := Option.some.inj wants
      exact absurd rfl (waits _)
    | enters | leaves | polls | asks | passes | strays | stays | sees | misses | retries =>
      nomatch wants
  | captures here | parks here | enters here | unparks here =>
    simp only [points_noteEntered, points_goto]
    rw [here] at wants
    exact wants
  | locks here free locks =>
    rw [here] at wants
    rw [points_goto]
    cases locks with
    | acquires => exact wants
    | wakes =>
      rw [task?_unparkThen]
      exact wants
    | waits => nomatch wants
  | unlocks here unlocks =>
    rw [here] at wants
    cases unlocks <;> nomatch wants
  | resumes here idle resumes =>
    rw [here] at wants
    cases resumes <;> nomatch wants
  | registers here | unregisters here =>
    rw [here] at wants waits
    obtain rfl := Option.some.inj wants
    exact absurd rfl (waits _)
  | creates here | detaches here | heeds here | dips here | leavesInner here | leavesOuter here
  | returns here | requests here | achieves here =>
    rw [here] at wants
    nomatch wants

theorem isUnnamed_parkThen {record : Option RecordId} {next : Point}
    (unnamed : (parkThen record next).isUnnamed = true) : record = none := by
  cases record with
  | none => rfl
  | some r => nomatch unnamed

theorem isUnnamed_unparkThen {record : Option RecordId} {next : Point}
    (unnamed : (unparkThen record next).isUnnamed = true) : record = none := by
  cases record with
  | none => rfl
  | some r => nomatch unnamed

theorem not_isUnnamed_of_afterPark {next : Point} (after : Point.AfterPark r next) :
    next.isUnnamed = false := by
  cases after with
  | outside | leaving | blocked | requesting => rfl

/-- A thread that goes without a record has done so from the beginning of its call. -/
theorem Turn.isUnnamed (turn : s.Turn i t) (away : s.points i ≠ .outside)
    (possible : (s.points i).IsPossible) (unnamed : (t.points i).isUnnamed = true) :
    (s.points i).isUnnamed = true := by
  cases turn with
  | rests here | creates here | detaches here => exact absurd here away
  | moves here moves =>
    rw [here] at away ⊢
    rw [points_goto] at unnamed
    cases moves with
    | enters | leaves | polls | asks => exact absurd rfl away
    | meets | collects | stops =>
      obtain rfl := isUnnamed_parkThen unnamed
      rfl
    | sees | misses | retries => exact unnamed
    | shows | nests | passes | strays | stays | finishes => nomatch unnamed
  | heeds | dips | leavesInner | leavesOuter | returns | registers | unregisters | captures =>
    simp only [points_noteLeft, points_goto] at unnamed
    nomatch unnamed
  | requests here | achieves here =>
    rw [points_goto] at unnamed
    rw [here]
    exact unnamed
  | parks here | enters here =>
    rw [here] at possible
    simp only [points_noteEntered, points_goto] at unnamed
    rw [not_isUnnamed_of_afterPark possible] at unnamed
    nomatch unnamed
  | unparks here =>
    rw [here] at possible
    rw [points_goto] at unnamed
    cases possible <;> nomatch unnamed
  | locks here free locks =>
    rw [points_goto] at unnamed
    rw [here]
    cases locks with
    | acquires => exact unnamed
    | wakes =>
      obtain rfl := isUnnamed_unparkThen unnamed
      rfl
    | waits => nomatch unnamed
  | unlocks here unlocks =>
    rw [points_goto] at unnamed
    cases unlocks <;> nomatch unnamed
  | resumes here idle resumes =>
    rw [points_goto] at unnamed
    rw [here]
    cases resumes with
    | gives | ends =>
      obtain rfl := isUnnamed_unparkThen unnamed
      rfl

theorem isUnnamed_of_advance {now : Snapshot} {choice : Bool}
    (taken : s.advance i now choice = some t) (unnamed : (s.points i).isUnnamed = true)
    (wanted : (s.points i).task? = some (.register r))
    (wants : (t.points i).task? = some (.register r)) : (t.points i).isUnnamed = true := by
  unfold advance at taken
  cases here : s.points i with
  | acquiring record task =>
    rw [here] at unnamed
    obtain rfl := Option.isNone_iff_eq_none.1 unnamed
    simp only [here] at taken
    split at taken <;>
    · obtain rfl := Option.some.inj taken
      rw [points_goto]
      rfl
  | blocked record task =>
    rw [here] at unnamed
    obtain rfl := Option.isNone_iff_eq_none.1 unnamed
    simp only [here] at taken
    split at taken
    · obtain rfl := Option.some.inj taken
      rw [points_goto]
      rfl
    · nomatch taken
  | holding record task =>
    rw [here] at wanted
    obtain rfl := Option.some.inj wanted
    simp only [here] at taken
    obtain rfl := Option.some.inj taken
    rw [points_goto] at wants
    nomatch wants
  | entering | capturing | raising | lowering =>
    rw [here] at unnamed
    nomatch unnamed
  | outside | polling | leaving | checking | returning | waiting | waited | requesting | surveying
  | retrying | stopped | releasing =>
    rw [here] at wanted
    nomatch wanted

theorem Turn.isAttached (turn : s.Turn i t) (away : s.points i ≠ .outside) :
    t.IsAttached r ↔ s.IsAttached r := by
  have kept : ∀ {r' : RecordId} {f : ThreadRecord → ThreadRecord},
      (∀ x, (f x).attached = x.attached) →
        (((s.threads.modify r' f).record? r).any (·.attached) = true ↔ s.IsAttached r) := by
    intro r' f keeps
    unfold IsAttached
    rw [record?_modify]
    split
    · simp [Option.any_map, keeps]
    · rfl
  cases turn with
  | rests here | creates here | detaches here => exact absurd here away
  | moves | heeds | leavesOuter | locks | unlocks | requests | achieves | resumes => exact .rfl
  | captures | parks | enters | dips | leavesInner | returns | unparks =>
    refine kept ?_
    exact fun _ => rfl
  | registers =>
    change (((s.threads.insert _).toOption.getD s.threads).record? r).any _ = true ↔ _
    rw [record?_insert]
    exact .rfl
  | unregisters =>
    change ((((s.threads.remove i).toOption.map Prod.snd).getD s.threads).record? r).any _ = true ↔
      _
    rw [record?_remove]
    exact .rfl

theorem current?_insert_self {ts : Threads} {x : ThreadRecord} (found : ts.record? r = some x)
    (unknown : ts.current? x.thread = none) :
    ((ts.insert r).toOption.getD ts).current? x.thread = some r := by
  unfold Threads.insert
  simp only [found, unknown]
  refine (List.lookup_append ..).trans ?_
  rw [show ts.registered.lookup x.thread = none from unknown]
  simp

theorem current?_remove_self (ts : Threads) (i : ThreadId) :
    (((ts.remove i).toOption.map Prod.snd).getD ts).current? i = none := by
  unfold Threads.remove
  cases found : ts.current? i with
  | none => exact found
  | some r =>
    refine List.lookup_eq_none_iff.2 fun e he => ?_
    have other : e.1 ≠ i := by simpa using (List.mem_filter.1 he).2
    simpa using Ne.symm other

theorem current?_insert_other {ts : Threads} {x : ThreadRecord} (found : ts.record? r = some x)
    (other : j ≠ x.thread) : ((ts.insert r).toOption.getD ts).current? j = ts.current? j := by
  unfold Threads.insert
  cases taken : ts.current? x.thread with
  | some r' =>
    simp only [found, taken]
    rfl
  | none =>
    simp only [found, taken]
    refine (List.lookup_append ..).trans ?_
    have missed : (j == x.thread) = false := beq_false_of_ne other
    rw [show ts.registered.lookup j = ts.current? j from rfl]
    simp [List.lookup_cons, missed]

/-- Whether a thread is registered under one record at most, and its handles tell which. -/
structure Enlisted (s : Handshake) : Prop where
  once : ∀ i r, (i, r) ∈ s.threads.registered → s.threads.current? i = some r
  handles : ∀ i r, s.Owns i r → s.IsAttached r →
    s.threads.current? i = some r ∨ (s.points i).task? = some (.register r)
  registering : ∀ i r, (s.points i).task? = some (.register r) →
    s.Owns i r ∧ (s.points i).isUnnamed = true
  unregistering : ∀ i r, (s.points i).task? = some (.unregister r) →
    s.threads.current? i = some r ∧ ¬ s.IsAttached r
  unnamed : ∀ i, (s.points i).isUnnamed = true → s.threads.current? i = none

inductive Enlists (s : Handshake) (i : ThreadId) (t : Handshake) : Prop
  | keeps (same : t.threads.registered = s.threads.registered)
      (goes_on : ∀ task, (s.points i).task? = some task → task.isRegistration = true →
        (t.points i).task? = some task)
  | registers {r : RecordId} (here : (s.points i).task? = some (.register r))
      (there : t.points i = .releasing)
      (threads : t.threads = (s.threads.insert r).toOption.getD s.threads)
  | unregisters {r : RecordId} (here : (s.points i).task? = some (.unregister r))
      (there : t.points i = .releasing)
      (threads : t.threads = ((s.threads.remove i).toOption.map Prod.snd).getD s.threads)

theorem enlists_of_advance {now : Snapshot} {choice : Bool} (shown : now.isCaptured = true)
    (taken : s.advance i now choice = some t) : s.Enlists i t := by
  have turn := turn_of_advance shown taken
  by_cases holds : ∃ record task, s.points i = .holding record task ∧ task.isRegistration = true
  · obtain ⟨record, task, here, changes⟩ := holds
    unfold advance at taken
    simp only [here] at taken
    cases task with
    | register r =>
      obtain rfl := Option.some.inj taken
      exact .registers (by rw [here]; rfl) (points_goto _ _ _) rfl
    | unregister r =>
      obtain rfl := Option.some.inj taken
      exact .unregisters (by rw [here]; rfl) (points_goto _ _ _) rfl
    | brief | allocate | stopWorld => nomatch changes
  · have goes_on : ∀ task, (s.points i).task? = some task → task.isRegistration = true →
        (t.points i).task? = some task := fun task wants changes =>
      turn.task?_of_task? wants changes fun record here => holds ⟨record, task, here, changes⟩
    cases turn with
    | registers here | unregisters here => exact absurd ⟨_, _, here, rfl⟩ holds
    | _ => exact .keeps rfl goes_on

namespace Enlisted

theorem current?_other (enlisted : s.Enlisted) (enlists : s.Enlists i t) (other : j ≠ i) :
    t.threads.current? j = s.threads.current? j := by
  cases enlists with
  | keeps same => rw [Threads.current?, same, Threads.current?]
  | registers here there threads =>
    obtain ⟨x, found, rfl⟩ := exists_record (enlisted.registering i _ here).1
    rw [threads, current?_insert_other found other]
  | unregisters here there threads => rw [threads, current?_remove other]

theorem current?_self (enlists : s.Enlists i t) (busy : t.points i ≠ .releasing) :
    t.threads.current? i = s.threads.current? i := by
  cases enlists with
  | keeps same => rw [Threads.current?, same, Threads.current?]
  | registers here there | unregisters here there => exact absurd there busy

theorem current?_of_ne_releasing (enlisted : s.Enlisted) (enlists : s.Enlists i t)
    (busy : t.points j ≠ .releasing) : t.threads.current? j = s.threads.current? j := by
  by_cases same : j = i
  · subst same
    exact current?_self enlists busy
  · exact enlisted.current?_other enlists same

theorem once_of_enlists (enlisted : s.Enlisted) (enlists : s.Enlists i t)
    (entry : (j, r) ∈ t.threads.registered) : t.threads.current? j = some r := by
  cases enlists with
  | keeps same =>
    rw [same] at entry
    rw [Threads.current?, same]
    exact enlisted.once j r entry
  | registers here there threads =>
    rw [threads] at entry ⊢
    obtain old | ⟨x, found, rfl, rfl⟩ := mem_registered_insert entry
    · exact current?_insert (enlisted.once j r old)
    · obtain ⟨owns, unnamed⟩ := enlisted.registering i _ here
      obtain ⟨x', found', rfl⟩ := exists_record owns
      obtain rfl := Option.some.inj (found.symm.trans found')
      exact current?_insert_self found (enlisted.unnamed _ unnamed)
  | unregisters here there threads =>
    rw [threads] at entry ⊢
    have known := enlisted.once j r (mem_registered_remove entry)
    by_cases same : j = i
    · subst same
      have gone := List.lookup_eq_none_iff.1 (current?_remove_self s.threads j) _ entry
      simp at gone
    · rw [current?_remove same]
      exact known

theorem handles_of_enlists (enlisted : s.Enlisted) (enlists : s.Enlists i t) (owns : s.Owns i r)
    (attached : s.IsAttached r) :
    t.threads.current? i = some r ∨ (t.points i).task? = some (.register r) := by
  have before := enlisted.handles i r owns attached
  cases enlists with
  | keeps same goes_on =>
    refine before.imp (fun known => ?_) fun wants => goes_on _ wants rfl
    rw [Threads.current?, same]
    exact known
  | registers here there threads =>
    obtain ⟨mine, unnamed⟩ := enlisted.registering i _ here
    obtain known | wants := before
    · rw [enlisted.unnamed i unnamed] at known
      nomatch known
    · obtain rfl := LockedTask.register.inj (Option.some.inj (wants.symm.trans here))
      obtain ⟨x, found, rfl⟩ := exists_record mine
      rw [threads]
      exact .inl (current?_insert_self found (enlisted.unnamed _ unnamed))
  | unregisters here there threads =>
    obtain ⟨registered, detached⟩ := enlisted.unregistering i _ here
    obtain known | wants := before
    · obtain rfl := Option.some.inj (known.symm.trans registered)
      exact absurd attached detached
    · nomatch wants.symm.trans here

theorem advance (enlisted : s.Enlisted) (ordered : s.Orderly) {now : Snapshot} {choice : Bool}
    (shown : now.isCaptured = true) (taken : s.advance i now choice = some t) : t.Enlisted := by
  have turn := turn_of_advance shown taken
  have enlists := enlists_of_advance shown taken
  have away := ne_outside_of_advance taken
  have attached : ∀ {r}, t.IsAttached r ↔ s.IsAttached r := turn.isAttached away
  have tasks : ∀ {j task}, (t.points j).task? = some task → task.isRegistration = true →
      (s.points j).task? = some task := by
    intro j task wants changes
    by_cases same : j = i
    · subst same
      exact turn.task? away (ordered.possible j) wants changes
    · exact turn.points_other same ▸ wants
  have busy : ∀ {j task}, (t.points j).task? = some task → t.points j ≠ .releasing := by
    intro j task wants there
    rw [there] at wants
    nomatch wants
  constructor
  · exact fun j r => enlisted.once_of_enlists enlists
  · intro j r owns handle
    have handle := attached.1 handle
    have owns : s.Owns j r := (turn.owns_before owns).resolve_right fun new => by
      simp [IsAttached, new.1] at handle
    by_cases same : j = i
    · subst same
      exact enlisted.handles_of_enlists enlists owns handle
    · rw [enlisted.current?_other enlists same, turn.points_other same]
      exact enlisted.handles j r owns handle
  · intro j r wants
    obtain ⟨owns, unnamed⟩ := enlisted.registering j r (tasks wants rfl)
    refine ⟨turn.owns owns, ?_⟩
    by_cases same : j = i
    · subst same
      exact isUnnamed_of_advance taken unnamed (tasks wants rfl) wants
    · rw [turn.points_other same]
      exact unnamed
  · intro j r wants
    rw [enlisted.current?_of_ne_releasing enlists (busy wants), attached]
    exact enlisted.unregistering j r (tasks wants rfl)
  · intro j unnamed
    have before : (s.points j).isUnnamed = true := by
      by_cases same : j = i
      · subst same
        exact turn.isUnnamed away (ordered.possible j) unnamed
      · exact turn.points_other same ▸ unnamed
    have busy : t.points j ≠ .releasing := fun there => by
      rw [there] at unnamed
      nomatch unnamed
    rw [enlisted.current?_of_ne_releasing enlists busy]
    exact enlisted.unnamed j before

theorem goto (enlisted : s.Enlisted) (here : s.points i = .outside) {q : Point}
    (harmless : ∀ task, q.task? = some task → task.isRegistration = false)
    (unknown : q.isUnnamed = true → s.threads.current? i = none) : (s.goto i q).Enlisted := by
  have points : ∀ j, (s.goto i q).points j = if j = i then q else s.points j := fun _ => rfl
  constructor
  · exact enlisted.once
  · intro j r owns attached
    refine (enlisted.handles j r owns attached).imp_right fun wants => ?_
    have other : j ≠ i := by
      rintro rfl
      rw [here] at wants
      nomatch wants
    rw [points, if_neg other]
    exact wants
  · intro j r wants
    rw [points] at wants ⊢
    split at wants
    · nomatch harmless _ wants
    · next other =>
      rw [if_neg other]
      exact enlisted.registering j r wants
  · intro j r wants
    rw [points] at wants
    split at wants
    · nomatch harmless _ wants
    · exact enlisted.unregistering j r wants
  · intro j unnamed
    rw [points] at unnamed
    split at unnamed
    · next same => exact same ▸ unknown unnamed
    · exact enlisted.unnamed j unnamed

theorem registers (enlisted : s.Enlisted) (ordered : s.Orderly) (here : s.points i = .outside)
    (unknown : s.threads.current? i = none) (x : ThreadRecord) (mine : x.thread = i) :
    ({ s with threads := (s.threads.create x).2 }.goto i
      (.acquiring none (.register s.threads.records.size))).Enlisted := by
  have points : ∀ j, ({ s with threads := (s.threads.create x).2 }.goto i
      (.acquiring none (.register s.threads.records.size))).points j =
        if j = i then .acquiring none (.register s.threads.records.size) else s.points j :=
    fun _ => rfl
  have record : ∀ r, (s.threads.create x).2.record? r =
      if r = s.threads.records.size then some x else s.threads.record? r := fun _ => record?_push
  have kept : ∀ {j r}, (s.threads.record? r).map (·.thread) = some j →
      ((s.threads.create x).2.record? r).map (·.thread) = some j := by
    intro j r owns
    have old : r ≠ s.threads.records.size := by
      rintro rfl
      simp [record?_size] at owns
    rw [record, if_neg old]
    exact owns
  constructor
  · exact enlisted.once
  · intro j r owns attached
    change ((s.threads.create x).2.record? r).map (·.thread) = some j at owns
    change ((s.threads.create x).2.record? r).any (·.attached) = true at attached
    rw [record] at owns attached
    rw [points]
    split at owns
    · next new =>
      subst new
      obtain rfl := Option.some.inj owns
      rw [if_pos mine]
      exact .inr rfl
    · next old =>
      rw [if_neg old] at attached
      refine (enlisted.handles j r owns attached).imp_right fun wants => ?_
      have other : j ≠ i := by
        rintro rfl
        rw [here] at wants
        nomatch wants
      rw [if_neg other]
      exact wants
  · intro j r wants
    rw [points] at wants ⊢
    split at wants
    · next same =>
      obtain rfl := LockedTask.register.inj (Option.some.inj wants)
      rw [if_pos same]
      refine ⟨?_, rfl⟩
      change ((s.threads.create x).2.record? _).map (·.thread) = some j
      rw [record, if_pos rfl, same, ← mine]
      rfl
    · next other =>
      obtain ⟨owns, unnamed⟩ := enlisted.registering j r wants
      rw [if_neg other]
      exact ⟨kept owns, unnamed⟩
  · intro j r wants
    rw [points] at wants
    split at wants
    · nomatch wants
    · obtain ⟨known, detached⟩ := enlisted.unregistering j r wants
      have owns := ordered.registered j r (mem_registered_of_current? known)
      have old : r ≠ s.threads.records.size := by
        rintro rfl
        simp [Owns, record?_size] at owns
      refine ⟨known, ?_⟩
      change ¬ ((s.threads.create x).2.record? r).any (·.attached) = true
      rw [record, if_neg old]
      exact detached
  · intro j unnamed
    rw [points] at unnamed
    split at unnamed
    · next same => exact same ▸ unknown
    · exact enlisted.unnamed j unnamed

theorem unregisters (enlisted : s.Enlisted) (here : s.points i = .outside) (owns : s.Owns i r)
    (attached : s.IsAttached r) :
    ({ s with threads := s.threads.modify r fun t => { t with attached := false } }.goto i
      (.acquiring (some r) (.unregister r))).Enlisted := by
  have points : ∀ j, ({ s with
      threads := s.threads.modify r fun t => { t with attached := false } }.goto i
        (.acquiring (some r) (.unregister r))).points j =
          if j = i then .acquiring (some r) (.unregister r) else s.points j := fun _ => rfl
  have detached : ∀ r', ((s.threads.modify r fun t => { t with attached := false }).record? r').any
      (·.attached) = true → s.IsAttached r' ∧ r' ≠ r := by
    intro r' still
    rw [record?_modify] at still
    split at still
    · simp [Option.any_map] at still
    · next other => exact ⟨still, Ne.symm other⟩
  have kept : ∀ {j r'}, ({ s with
      threads := s.threads.modify r fun t => { t with attached := false } }.goto i
        (.acquiring (some r) (.unregister r))).Owns j r' ↔ s.Owns j r' :=
    owns_modify rfl fun _ => rfl
  constructor
  · exact enlisted.once
  · intro j r' owns' still
    rw [kept] at owns'
    refine (enlisted.handles j r' owns' (detached r' still).1).imp_right fun wants => ?_
    have other : j ≠ i := by
      rintro rfl
      rw [here] at wants
      nomatch wants
    rw [points, if_neg other]
    exact wants
  · intro j r' wants
    rw [points] at wants ⊢
    split at wants
    · nomatch wants
    · next other =>
      rw [if_neg other, kept]
      exact enlisted.registering j r' wants
  · intro j r' wants
    rw [points] at wants
    split at wants
    · next same =>
      subst same
      obtain rfl := LockedTask.unregister.inj (Option.some.inj wants)
      refine ⟨?_, fun still => (detached _ still).2 rfl⟩
      refine (enlisted.handles j r owns attached).resolve_right fun wants => ?_
      rw [here] at wants
      nomatch wants
    · obtain ⟨known, gone⟩ := enlisted.unregistering j r' wants
      exact ⟨known, fun still => gone (detached r' still).1⟩
  · intro j unnamed
    rw [points] at unnamed
    split at unnamed
    · nomatch unnamed
    · exact enlisted.unnamed j unnamed

theorem call (enlisted : s.Enlisted) (ordered : s.Orderly) (taken : s.call i c = some t) :
    t.Enlisted := by
  obtain ⟨here, mine, begins⟩ := call_cases taken
  cases begins with
  | known | gone => exact enlisted
  | registers unknown => exact enlisted.registers ordered here unknown _ rfl
  | unregisters attached => exact enlisted.unregisters here (mine _ rfl) attached
  | enters | leaves | polls => exact enlisted.goto here nofun nofun
  | allocates =>
    refine enlisted.goto here (fun task wants => ?_) nofun
    obtain rfl := Option.some.inj wants
    rfl
  | asks needs =>
    refine enlisted.goto here (fun task wants => ?_) Option.isNone_iff_eq_none.1
    obtain rfl := Option.some.inj wants
    cases c <;> simp [Call.task?] at needs <;> subst needs <;> rfl

end Enlisted

theorem enlisted_start : Enlisted {} where
  once _ _ entry := nomatch entry
  handles _ _ owns := by simp [Owns, Threads.record?] at owns
  registering _ _ wants := nomatch wants
  unregistering _ _ wants := nomatch wants
  unnamed _ _ := rfl

theorem Reachable.enlisted {may : Handshake → ThreadId → Call → Prop}
    (reachable : Reachable may s) : s.Enlisted := by
  induction reachable with
  | start => exact enlisted_start
  | call i c before allowed taken ih => exact ih.call before.orderly taken
  | advance i now choice before shown taken ih => exact ih.advance before.orderly shown taken

/-- A handle that was not unregistered is that of the record under which its thread is registered,
when the thread runs code of its own. -/
theorem Enlisted.currentCall_of_attachedCall (enlisted : s.Enlisted)
    (taken : s.call i c = some t) (allowed : attachedCall s i c) : currentCall s i c := by
  obtain ⟨here, mine, -⟩ := call_cases taken
  intro r handle
  refine (enlisted.handles i r (mine r handle) (allowed r handle)).resolve_right fun wants => ?_
  rw [here] at wants
  nomatch wants

theorem Reachable.current_of_attached (reachable : Reachable attachedCall s) :
    Reachable currentCall s := by
  induction reachable with
  | start => exact .start
  | call i c before allowed taken ih =>
    exact .call i c ih (before.enlisted.currentCall_of_attachedCall taken allowed) taken
  | advance i now choice before shown taken ih => exact .advance i now choice ih shown taken

end Handshake

end MarkSweep
