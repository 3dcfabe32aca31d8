import Mathlib.Tactic.Common
import MarkSweep.Safepoint.History

set_option autoImplicit false

/-!
# Turns of a handshake

How a call begins, and what each step of a thread changes. Most steps only move the thread to
another point; the others make one change to what all threads share.
-/

namespace MarkSweep

namespace Point

inductive AfterStop (record : Option RecordId) : Point → Prop
  | releasing : AfterStop record .releasing
  | holding (collections : Nat) : AfterStop record (.holding record (.allocate collections))

inductive AfterPark (r : RecordId) : Point → Prop
  | outside : AfterPark r .outside
  | leaving : AfterPark r (.leaving r)
  | blocked (task : LockedTask) : AfterPark r (.blocked (some r) task)
  | requesting (patience : Patience) {next : Point} (after : AfterStop (some r) next) :
      AfterPark r (.requesting (some r) patience next)

inductive AfterUnpark (r : RecordId) : Point → Prop
  | releasing : AfterUnpark r .releasing
  | holding (task : LockedTask) : AfterUnpark r (.holding (some r) task)

/-- Whether the rest of what a thread does is something that it may do. -/
def IsPossible : Point → Prop
  | entering r next | capturing r next | raising r next => AfterPark r next
  | lowering r next => AfterUnpark r next
  | requesting record _ next | surveying record _ next _ | retrying record _ next
  | stopped record next => AfterStop record next
  | _ => True

def record? : Point → Option RecordId
  | outside | releasing => none
  | entering r _ | capturing r _ | raising r _ | polling r | leaving r | checking r | returning r
  | waiting r | waited r | lowering r _ => some r
  | acquiring record _ | blocked record _ | holding record _ | requesting record _ _
  | surveying record _ _ _ | retrying record _ _ | stopped record _ => record

def HoldsLock : Point → Prop
  | entering _ next | capturing _ next | raising _ next | lowering _ next => next.HoldsLock
  | waited _ | holding _ _ | requesting _ _ _ | surveying _ _ _ _ | retrying _ _ _ | stopped _ _
  | releasing => True
  | _ => False

def phase : Point → Phase
  | surveying _ _ _ _ | retrying _ _ _ => .stopRequested
  | stopped _ _ => .worldStopped
  | _ => .idle

/-- Whether a thread has parked its record for a call, besides the scopes that it is in. -/
def isRaised : Point → Bool
  | blocked _ _ | lowering _ _ | requesting _ _ _ | surveying _ _ _ _ | retrying _ _ _
  | stopped _ _ => true
  | _ => false

/-- Whether a thread that is in a scope has lowered the depth, and may raise it again. -/
def isLowered : Point → Bool
  | checking _ | returning _ => true
  | _ => false

/-- Whether a thread has a snapshot at depth zero. -/
def hasCaptured : Point → Bool
  | raising _ _ | checking _ | returning _ => true
  | _ => false

def newDepth : Point → Nat → Nat
  | raising _ _, depth | returning _, depth => depth + 1
  | leaving _, depth | lowering _ _, depth => depth - 1
  | _, depth => depth

def unread? : Point → Option (List RecordId)
  | surveying _ _ _ unread => some unread
  | stopped _ _ => some []
  | _ => none

/-- Whether nothing is noted of a thread's record: it has no snapshot at depth zero, none is being
taken, and no depths are being looked at. -/
def isPlain : Point → Bool
  | capturing _ _ | raising _ _ | checking _ | returning _ | surveying _ _ _ _ | stopped _ _ =>
    false
  | _ => true

end Point

def Call.task? : Call → Option LockedTask
  | allocate => some (.allocate 2)
  | brief => some .brief
  | stopWorld patience => some (.stopWorld patience)
  | _ => none

namespace Handshake

def Owns (s : Handshake) (i : ThreadId) (r : RecordId) : Prop :=
  (s.threads.record? r).map (·.thread) = some i

section Calls

variable {s t : Handshake} {i : ThreadId} {c : Call}

inductive Begins (s : Handshake) (i : ThreadId) : Call → Handshake → Prop
  | known {r : RecordId} (registered : s.threads.current? i = some r) : Begins s i .register s
  | registers (unknown : s.threads.current? i = none) :
      Begins s i .register ({ s with
        threads := (s.threads.create { thread := i, name := "", stackTop := 0 }).2 }.goto i
          (.acquiring none (.register s.threads.records.size)))
  | gone {r : RecordId} (detached : ¬ s.IsAttached r) : Begins s i (.unregister r) s
  | unregisters {r : RecordId} (attached : s.IsAttached r) :
      Begins s i (.unregister r) ({ s with
        threads := s.threads.modify r fun t => { t with attached := false } }.goto i
          (.acquiring (some r) (.unregister r)))
  | enters {r : RecordId} : Begins s i (.enter r) (s.goto i (.entering r .outside))
  | leaves {r : RecordId} : Begins s i (.leave r) (s.goto i (.leaving r))
  | polls {r : RecordId} : Begins s i (.poll r) (s.goto i (.polling r))
  | allocates {r : RecordId} :
      Begins s i (.allocateUnder r) (s.goto i (.acquiring (some r) (.allocate 2)))
  | asks {c : Call} {task : LockedTask} (needs : c.task? = some task) :
      Begins s i c (s.goto i (.acquiring (s.threads.current? i) task))

/-- A thread begins a call from code of its own, under the handle of a record of its own. -/
theorem call_cases (taken : s.call i c = some t) :
    s.points i = .outside ∧ (∀ r, c.handle? = some r → s.Owns i r) ∧ s.Begins i c t := by
  unfold call at taken
  split at taken
  · nomatch taken
  · next here =>
    split at taken
    · nomatch taken
    · next mine =>
      refine ⟨Decidable.not_not.1 here, fun id handle => ?_, ?_⟩
      · by_contra other
        exact mine ⟨id, handle, other⟩
      · cases c with
        | register =>
          simp only at taken
          split at taken
          · next known =>
            obtain rfl := Option.some.inj taken
            exact .known known
          · next unknown =>
            obtain rfl := Option.some.inj taken
            exact .registers unknown
        | unregister id =>
          simp only at taken
          split at taken
          · next attached =>
            obtain rfl := Option.some.inj taken
            exact .unregisters attached
          · next detached =>
            obtain rfl := Option.some.inj taken
            exact .gone detached
        | enter id =>
          obtain rfl := Option.some.inj taken
          exact .enters
        | leave id =>
          obtain rfl := Option.some.inj taken
          exact .leaves
        | poll id =>
          obtain rfl := Option.some.inj taken
          exact .polls
        | allocateUnder id =>
          obtain rfl := Option.some.inj taken
          exact .allocates
        | allocate | brief | stopWorld =>
          obtain rfl := Option.some.inj taken
          exact .asks rfl

end Calls

inductive Moves (s : Handshake) (i : ThreadId) : Point → Point → Prop
  | enters {r : RecordId} (mine : s.Owns i r) : Moves s i .outside (.entering r .outside)
  | leaves {r : RecordId} (mine : s.Owns i r) : Moves s i .outside (.leaving r)
  | polls {r : RecordId} (mine : s.Owns i r) : Moves s i .outside (.polling r)
  | asks {record : Option RecordId} {task : LockedTask}
      (mine : ∀ r, record = some r → s.Owns i r ∨ s.threads.current? i = some r) :
      Moves s i .outside (.acquiring record task)
  | shows {r : RecordId} {next : Point} (shallow : s.depth r = 0) :
      Moves s i (.entering r next) (.capturing r next)
  | nests {r : RecordId} {next : Point} (deep : s.depth r ≠ 0) :
      Moves s i (.entering r next) (.raising r next)
  | passes {r : RecordId} : Moves s i (.polling r) .outside
  | strays {r : RecordId} (shallow : s.depth r = 0) : Moves s i (.leaving r) .outside
  | stays {r : RecordId} (asked : s.safepoint.phase ≠ .idle) :
      Moves s i (.checking r) (.returning r)
  | meets {record : Option RecordId} {task : LockedTask} :
      Moves s i (.acquiring record task) (parkThen record (.blocked record task))
  | finishes {record : Option RecordId} {task : LockedTask} :
      Moves s i (.holding record task) .releasing
  | collects {record : Option RecordId} {n : Nat} :
      Moves s i (.holding record (.allocate (n + 1)))
        (parkThen record (.requesting record .forever (.holding record (.allocate n))))
  | stops {record : Option RecordId} {patience : Patience} :
      Moves s i (.holding record (.stopWorld patience))
        (parkThen record (.requesting record patience .releasing))
  | sees {record : Option RecordId} {patience : Patience} {next : Point} {r : RecordId}
      {unread : List RecordId} (deep : s.depth r ≠ 0) :
      Moves s i (.surveying record patience next (r :: unread))
        (.surveying record patience next unread)
  | misses {record : Option RecordId} {patience : Patience} {next : Point} {r : RecordId}
      {unread : List RecordId} :
      Moves s i (.surveying record patience next (r :: unread)) (.retrying record patience next)
  | retries {record : Option RecordId} {patience : Patience} {next : Point} :
      Moves s i (.retrying record patience next)
        (.surveying record patience next s.registeredRecords)

inductive Locks : Point → Point → Prop
  | acquires {record : Option RecordId} {task : LockedTask} :
      Locks (.acquiring record task) (.holding record task)
  | wakes {record : Option RecordId} {task : LockedTask} :
      Locks (.blocked record task) (unparkThen record (.holding record task))
  | waits {r : RecordId} : Locks (.waiting r) (.waited r)

inductive Unlocks : Point → Point → Prop
  | releases : Unlocks .releasing .outside
  | leaves {r : RecordId} : Unlocks (.waited r) (.leaving r)

inductive Resumes : Point → Point → Prop
  | gives {record : Option RecordId} {patience : Patience} {next : Point} :
      Resumes (.retrying record patience next) (unparkThen record next)
  | ends {record : Option RecordId} {next : Point} :
      Resumes (.stopped record next) (unparkThen record next)

inductive Turn (s : Handshake) (i : ThreadId) : Handshake → Prop
  | rests (here : s.points i = .outside) : Turn s i s
  | moves {p q : Point} (here : s.points i = p) (moves : s.Moves i p q) : Turn s i (s.goto i q)
  | creates (here : s.points i = .outside) :
      Turn s i ({ s with
        threads := (s.threads.create { thread := i, name := "", stackTop := 0 }).2 }.goto i
          (.acquiring none (.register s.threads.records.size)))
  | detaches {r : RecordId} (here : s.points i = .outside) (mine : s.Owns i r) :
      Turn s i ({ s with
        threads := s.threads.modify r fun t => { t with attached := false } }.goto i
          (.acquiring (some r) (.unregister r)))
  | heeds {r : RecordId} (here : s.points i = .polling r) :
      Turn s i ({ s with safepoint := s.safepoint.recordPoll }.goto i (.entering r (.leaving r)))
  | captures {r : RecordId} {next : Point} {now : Snapshot} (here : s.points i = .capturing r next)
      (shown : now.isCaptured = true) :
      Turn s i ({ s with
        threads := s.threads.modify r fun t => { t with snapshot := now } }.goto i
          (.raising r next))
  | parks {r : RecordId} {next : Point} (here : s.points i = .raising r next)
      (called : next ≠ .outside ∧ ∀ r', next ≠ .leaving r') :
      Turn s i ((s.changeDepth r (· + 1)).goto i next)
  | enters {r : RecordId} {next : Point} (here : s.points i = .raising r next)
      (own : next = .outside ∨ ∃ r', next = .leaving r') :
      Turn s i (((s.changeDepth r (· + 1)).goto i next).noteEntered r)
  | dips {r : RecordId} (here : s.points i = .leaving r) (last : s.depth r = 1) :
      Turn s i ((s.changeDepth r (· - 1)).goto i (.checking r))
  | leavesInner {r : RecordId} (here : s.points i = .leaving r) (deep : 1 < s.depth r) :
      Turn s i (((s.changeDepth r (· - 1)).goto i .outside).noteLeft r)
  | leavesOuter {r : RecordId} (here : s.points i = .checking r)
      (free : s.safepoint.phase = .idle) : Turn s i ((s.goto i .outside).noteLeft r)
  | returns {r : RecordId} (here : s.points i = .returning r) :
      Turn s i (({ s with safepoint := s.safepoint.recordPark }.changeDepth r (· + 1)).goto i
        (.waiting r))
  | unparks {r : RecordId} {next : Point} (here : s.points i = .lowering r next) :
      Turn s i ((s.changeDepth r (· - 1)).goto i next)
  | locks {p q : Point} (here : s.points i = p) (free : s.lock = none) (locks : Locks p q) :
      Turn s i ({ s with lock := some i }.goto i q)
  | unlocks {p q : Point} (here : s.points i = p) (unlocks : Unlocks p q) :
      Turn s i ({ s with lock := none }.goto i q)
  | registers {record : Option RecordId} {id : RecordId}
      (here : s.points i = .holding record (.register id)) :
      Turn s i ({ s with threads := (s.threads.insert id).toOption.getD s.threads }.goto i
        .releasing)
  | unregisters {record : Option RecordId} {id : RecordId}
      (here : s.points i = .holding record (.unregister id)) :
      Turn s i ({ s with
        threads := ((s.threads.remove i).toOption.map Prod.snd).getD s.threads }.goto i .releasing)
  | requests {record : Option RecordId} {patience : Patience} {next : Point}
      (here : s.points i = .requesting record patience next) :
      Turn s i ({ s with safepoint := s.safepoint.request }.goto i
        (.surveying record patience next s.registeredRecords))
  | achieves {record : Option RecordId} {patience : Patience} {next : Point}
      (here : s.points i = .surveying record patience next []) :
      Turn s i ({ s with safepoint := s.safepoint.achieve }.goto i (.stopped record next))
  | resumes {p q : Point} {safepoint : Safepoint} (here : s.points i = p)
      (idle : safepoint.phase = .idle) (resumes : Resumes p q) :
      Turn s i ({ s with safepoint }.goto i q)

theorem stopRequested_iff (s : Safepoint) : s.stopRequested = true ↔ s.phase ≠ .idle := by
  simp [Safepoint.stopRequested]

theorem turn_of_call {s t : Handshake} {i : ThreadId} {c : Call} (taken : s.call i c = some t) :
    s.Turn i t := by
  obtain ⟨here, mine, begins⟩ := call_cases taken
  cases begins with
  | known | gone => exact .rests here
  | registers => exact .creates here
  | unregisters => exact .detaches here (mine _ rfl)
  | enters => exact .moves here (.enters (mine _ rfl))
  | leaves => exact .moves here (.leaves (mine _ rfl))
  | polls => exact .moves here (.polls (mine _ rfl))
  | allocates => exact .moves here (.asks fun r same => .inl (mine r same))
  | asks => exact .moves here (.asks fun _ => .inr)

theorem ne_outside_of_advance {s t : Handshake} {i : ThreadId} {now : Snapshot}
    {choice : Bool}
    (taken : s.advance i now choice = some t) : s.points i ≠ .outside := fun here => by
  simp [advance, here] at taken

theorem turn_of_advance {s t : Handshake} {i : ThreadId} {now : Snapshot} {choice : Bool}
    (shown : now.isCaptured = true) (taken : s.advance i now choice = some t) : s.Turn i t := by
  unfold advance at taken
  cases here : s.points i with
  | outside => simp [here] at taken
  | entering r next =>
    simp only [here] at taken
    obtain rfl := Option.some.inj taken
    split
    · next shallow => exact .moves here (.shows shallow)
    · next deep => exact .moves here (.nests deep)
  | capturing r next =>
    simp only [here] at taken
    obtain rfl := Option.some.inj taken
    exact .captures here shown
  | raising r next =>
    simp only [here] at taken
    split at taken
    · obtain rfl := Option.some.inj taken
      exact .enters here (.inl rfl)
    · obtain rfl := Option.some.inj taken
      exact .enters here (.inr ⟨_, rfl⟩)
    · next notOutside notLeaving =>
      obtain rfl := Option.some.inj taken
      exact .parks here ⟨notOutside, notLeaving⟩
  | polling r =>
    simp only [here] at taken
    split at taken
    · obtain rfl := Option.some.inj taken
      exact .heeds here
    · obtain rfl := Option.some.inj taken
      exact .moves here .passes
  | leaving r =>
    simp only [here] at taken
    split at taken
    · next shallow =>
      obtain rfl := Option.some.inj taken
      exact .moves here (.strays shallow)
    · next last =>
      obtain rfl := Option.some.inj taken
      exact .dips here last
    · next zero one =>
      obtain rfl := Option.some.inj taken
      have nonzero : s.depth r ≠ 0 := zero
      have another : s.depth r ≠ 1 := one
      exact .leavesInner here (by omega)
  | checking r =>
    simp only [here] at taken
    split at taken
    · next asked =>
      obtain rfl := Option.some.inj taken
      exact .moves here (.stays ((stopRequested_iff _).1 asked))
    · next free =>
      obtain rfl := Option.some.inj taken
      rw [stopRequested_iff, Decidable.not_not] at free
      exact .leavesOuter here free
  | returning r =>
    simp only [here] at taken
    obtain rfl := Option.some.inj taken
    exact .returns here
  | waiting r =>
    simp only [here] at taken
    split at taken
    · next free =>
      obtain rfl := Option.some.inj taken
      exact .locks here (Option.isNone_iff_eq_none.1 free) .waits
    · simp at taken
  | waited r =>
    simp only [here] at taken
    obtain rfl := Option.some.inj taken
    exact .unlocks here .leaves
  | acquiring record task =>
    simp only [here] at taken
    split at taken
    · next free =>
      obtain rfl := Option.some.inj taken
      exact .locks here (Option.isNone_iff_eq_none.1 free) .acquires
    · obtain rfl := Option.some.inj taken
      exact .moves here .meets
  | blocked record task =>
    simp only [here] at taken
    split at taken
    · next free =>
      obtain rfl := Option.some.inj taken
      exact .locks here (Option.isNone_iff_eq_none.1 free) .wakes
    · simp at taken
  | lowering r next =>
    simp only [here] at taken
    obtain rfl := Option.some.inj taken
    exact .unparks here
  | holding record task =>
    simp only [here] at taken
    cases task with
    | brief =>
      obtain rfl := Option.some.inj taken
      exact .moves here .finishes
    | register id =>
      obtain rfl := Option.some.inj taken
      exact .registers here
    | unregister id =>
      obtain rfl := Option.some.inj taken
      exact .unregisters here
    | stopWorld patience =>
      obtain rfl := Option.some.inj taken
      exact .moves here .stops
    | allocate collections =>
      simp only at taken
      split at taken
      · obtain rfl := Option.some.inj taken
        exact .moves here .collects
      · obtain rfl := Option.some.inj taken
        exact .moves here .finishes
  | requesting record patience next =>
    simp only [here] at taken
    obtain rfl := Option.some.inj taken
    exact .requests here
  | surveying record patience next unread =>
    cases unread with
    | nil =>
      simp only [here] at taken
      obtain rfl := Option.some.inj taken
      exact .achieves here
    | cons r unread =>
      simp only [here] at taken
      obtain rfl := Option.some.inj taken
      split
      · exact .moves here .misses
      · next deep => exact .moves here (.sees deep)
  | retrying record patience next =>
    simp only [here] at taken
    split at taken
    · obtain rfl := Option.some.inj taken
      exact .resumes here rfl .gives
    · obtain rfl := Option.some.inj taken
      exact .moves here .retries
  | stopped record next =>
    simp only [here] at taken
    obtain rfl := Option.some.inj taken
    exact .resumes here rfl .ends
  | releasing =>
    simp only [here] at taken
    obtain rfl := Option.some.inj taken
    exact .unlocks here .releases

end Handshake

end MarkSweep
