import MarkSweep.Safepoint.Handshake

set_option autoImplicit false

/-!
# Histories of a handshake

What threads have called so far and what came of it. A visit is a call that has come back, with the
handshake as it was when the thread made the call and as it is when the thread runs code of its own
again. No step of a thread reads the history.
-/

namespace MarkSweep

/-- Whether a thread stops the world, from the request to the end of the stop. -/
def Point.isStopping : Point → Bool
  | requesting _ _ _ | surveying _ _ _ _ | retrying _ _ _ | stopped _ _ => true
  | _ => false

namespace Handshake

def IsAttached (s : Handshake) (record : RecordId) : Prop :=
  (s.threads.record? record).any (·.attached) = true

/-- Calls that use no handle that was unregistered. -/
def attachedCall : Handshake → ThreadId → Call → Prop :=
  fun s _ c => ∀ id ∈ c.handle?, s.IsAttached id

/-- Whether a collector that holds the lock waits for a thread: it has asked for a stop, and the
thread is registered at depth zero. -/
def WaitsFor (s : Handshake) (c i : ThreadId) : Prop :=
  s.lock = some c ∧ s.safepoint.phase = .stopRequested ∧
    ∃ r, (i, r) ∈ s.threads.registered ∧ s.depth r = 0

inductive Leads (may : Handshake → ThreadId → Call → Prop) (s : Handshake) : Handshake → Prop
  | refl : Leads may s s
  | call {t u : Handshake} (i : ThreadId) (c : Call) (before : Leads may s t) (allowed : may t i c)
      (taken : t.call i c = some u) : Leads may s u
  | advance {t u : Handshake} (i : ThreadId) (now : Snapshot) (choice : Bool)
      (before : Leads may s t) (shown : now.isCaptured = true)
      (taken : t.advance i now choice = some u) : Leads may s u

def refusal? (s : Handshake) (i : ThreadId) : Option Error :=
  match s.points i with
  | .leaving r =>
    match s.threads.unpark r with
    | (.error e, _) => some e
    | (.ok _, _) => none
  | _ => none

def shows? (s : Handshake) (i : ThreadId) (now : Snapshot) : Option Snapshot :=
  match s.points i with
  | .capturing _ _ => some now
  | _ => none

end Handshake

structure Pending where
  call : Call
  before : Handshake
  shown : Option Snapshot

structure Visit extends Pending where
  thread : ThreadId
  after : Handshake
  refusal : Option Error

namespace Pending

def see (i : ThreadId) (now : Snapshot) (s : Handshake) (p : Pending) : Pending :=
  { p with shown := (s.shows? i now).or p.shown }

def comeBack (i : ThreadId) (after : Handshake) (refusal : Option Error) (p : Pending) : Visit :=
  { p with thread := i, after, refusal }

end Pending

def Call.newDepth (c : Call) (record : RecordId) (depth : Nat) : Nat :=
  match c with
  | .enter r => if r = record then depth + 1 else depth
  | .leave r => if r = record then depth - 1 else depth
  | _ => depth

def Call.refusal? (c : Call) (before : Handshake) : Option Error :=
  match c with
  | .leave r => if before.depth r = 0 then some .unbalancedBlocking else none
  | _ => none

/-- Whether a call has left the records of its thread as deep as it should, and has failed only
where it should. -/
structure Visit.IsBalanced (v : Visit) : Prop where
  depth : ∀ r, (v.after.threads.record? r).map (·.thread) = some v.thread →
    v.after.depth r = v.call.newDepth r (v.before.depth r)
  refusal : v.refusal = v.call.refusal? v.before

structure Trace where
  pending : ThreadId → Option Pending := fun _ => none
  visits : List Visit := []

namespace Trace

def await (i : ThreadId) (p : Pending) (h : Trace) : Trace :=
  { h with pending := Handshake.updated h.pending i (some p) }

def finish (v : Visit) (h : Trace) : Trace :=
  { pending := Handshake.updated h.pending v.thread none, visits := v :: h.visits }

def begin (i : ThreadId) (c : Call) (s t : Handshake) (h : Trace) : Trace :=
  let p : Pending := { call := c, before := s, shown := none }
  if t.points i = .outside then h.finish (p.comeBack i t none) else h.await i p

def proceed (i : ThreadId) (now : Snapshot) (s t : Handshake) (h : Trace) : Trace :=
  match h.pending i with
  | none => h
  | some p =>
    let p := p.see i now s
    if t.points i = .outside then h.finish (p.comeBack i t (s.refusal? i)) else h.await i p

def entries (h : Trace) (r : RecordId) : Nat := h.visits.countP fun v => v.call = .enter r

def exits (h : Trace) (r : RecordId) : Nat :=
  h.visits.countP fun v => v.call = .leave r ∧ v.refusal.isNone

/-- The latest entry to a record that was in no scope. -/
def outermost? (h : Trace) (r : RecordId) : Option Visit :=
  h.visits.find? fun v => v.call = .enter r ∧ v.before.depth r = 0

end Trace

namespace Handshake

/-- The states that threads can bring about that make only calls of a certain kind, with what they
have called. -/
inductive Traced (may : Handshake → ThreadId → Call → Prop) : Handshake → Trace → Prop
  | start : Traced may {} {}
  | call {s t : Handshake} {h : Trace} (i : ThreadId) (c : Call) (before : Traced may s h)
      (allowed : may s i c) (taken : s.call i c = some t) : Traced may t (h.begin i c s t)
  | advance {s t : Handshake} {h : Trace} (i : ThreadId) (now : Snapshot) (choice : Bool)
      (before : Traced may s h) (shown : now.isCaptured = true)
      (taken : s.advance i now choice = some t) : Traced may t (h.proceed i now s t)

end Handshake

end MarkSweep
