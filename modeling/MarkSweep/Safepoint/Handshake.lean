import MarkSweep.Safepoint
import MarkSweep.Thread.Registry

set_option autoImplicit false

/-!
# The handshake, step by step

How threads that call a heap at the same time keep out of each other's way. All have one lock, one
phase and one registry of records. A step is a single access to these: a lock taken or let go, a
phase read or written, a depth raised, lowered or read, a snapshot taken, a record registered. Steps
of different threads come in any order.

A thread is at a point of what it does. At `Point.outside` it runs code of its own, and may begin
any call. A call under the handle of a record parks that record and no other, also when the record
is not registered any more. The two last fields of the state are a history that no step reads.
-/

namespace MarkSweep

inductive LockedTask
  | brief
  | register (record : RecordId)
  | unregister (record : RecordId)
  | allocate (collections : Nat)
  | stopWorld (patience : Patience)
deriving DecidableEq, Repr

inductive Point
  | outside
  | entering (record : RecordId) (next : Point)
  | capturing (record : RecordId) (next : Point)
  | raising (record : RecordId) (next : Point)
  | polling (record : RecordId)
  | leaving (record : RecordId)
  /-- See whether a stop is under way, at depth zero. -/
  | checking (record : RecordId)
  /-- Go back into the scope. -/
  | returning (record : RecordId)
  | waiting (record : RecordId)
  | waited (record : RecordId)
  | acquiring (record : Option RecordId) (task : LockedTask)
  | blocked (record : Option RecordId) (task : LockedTask)
  | lowering (record : RecordId) (next : Point)
  | holding (record : Option RecordId) (task : LockedTask)
  | requesting (record : Option RecordId) (patience : Patience) (next : Point)
  /-- Look at the depths of some records, one after the other. With none left, declare the world
  stopped. -/
  | surveying (record : Option RecordId) (patience : Patience) (next : Point)
      (unread : List RecordId)
  | retrying (record : Option RecordId) (patience : Patience) (next : Point)
  | stopped (record : Option RecordId) (next : Point)
  | releasing
deriving DecidableEq, Repr

inductive Call
  | register
  | unregister (record : RecordId)
  | enter (record : RecordId)
  | leave (record : RecordId)
  | poll (record : RecordId)
  | allocateUnder (record : RecordId)
  | allocate
  | brief
  | stopWorld (patience : Patience)
deriving DecidableEq, Repr

def Call.handle? : Call → Option RecordId
  | unregister record | enter record | leave record | poll record | allocateUnder record =>
    some record
  | _ => none

structure Handshake where
  lock : Option ThreadId := none
  safepoint : Safepoint := {}
  threads : Threads := {}
  points : ThreadId → Point := fun _ => .outside
  scopes : RecordId → Nat := fun _ => 0
  outermost : RecordId → Snapshot := fun _ => {}

namespace Handshake

def updated {α : Type} (f : Nat → α) (i : Nat) (a : α) : Nat → α :=
  fun j => if j = i then a else f j

def goto (i : ThreadId) (point : Point) (s : Handshake) : Handshake :=
  { s with points := updated s.points i point }

def depth (s : Handshake) (record : RecordId) : Nat := s.threads.depth record

def changeDepth (record : RecordId) (f : Nat → Nat) (s : Handshake) : Handshake :=
  { s with threads := s.threads.modify record fun r => { r with depth := f r.depth } }

def snapshot (s : Handshake) (record : RecordId) : Snapshot :=
  ((s.threads.record? record).map (·.snapshot)).getD {}

def noteEntered (record : RecordId) (s : Handshake) : Handshake :=
  { s with
    scopes := updated s.scopes record (s.scopes record + 1)
    outermost :=
      if s.scopes record = 0 then updated s.outermost record (s.snapshot record) else s.outermost }

def noteLeft (record : RecordId) (s : Handshake) : Handshake :=
  { s with scopes := updated s.scopes record (s.scopes record - 1) }

def parkThen (record : Option RecordId) (next : Point) : Point :=
  match record with
  | some r => .entering r next
  | none => next

def unparkThen (record : Option RecordId) (next : Point) : Point :=
  match record with
  | some r => .lowering r next
  | none => next

def registeredRecords (s : Handshake) : List RecordId := s.threads.registered.map (·.2)

def call (i : ThreadId) (c : Call) (s : Handshake) : Option Handshake :=
  if s.points i ≠ .outside then none
  else if ∃ id ∈ c.handle?, (s.threads.record? id).map (·.thread) ≠ some i then none
  else
    let current := s.threads.current? i
    match c with
    | .register =>
      match current with
      | some _ => some s
      | none =>
        match s.threads.create { thread := i, name := "", stackTop := 0 } with
        | (id, threads) => some ({ s with threads }.goto i (.acquiring none (.register id)))
    | .unregister id =>
      if (s.threads.record? id).any (·.attached) then
        some ({ s with
          threads := s.threads.modify id fun r => { r with attached := false } }.goto i
            (.acquiring (some id) (.unregister id)))
      else some s
    | .enter id => some (s.goto i (.entering id .outside))
    | .leave id => some (s.goto i (.leaving id))
    | .poll id => some (s.goto i (.polling id))
    | .allocateUnder id => some (s.goto i (.acquiring (some id) (.allocate 2)))
    | .allocate => some (s.goto i (.acquiring current (.allocate 2)))
    | .brief => some (s.goto i (.acquiring current .brief))
    | .stopWorld patience => some (s.goto i (.acquiring current (.stopWorld patience)))

/-- A thread makes its next access, unless it has to wait. `now` is what its machine shows, and
`choice` settles what the heap decides by other means: whether to collect, whether to give up. -/
def advance (i : ThreadId) (now : Snapshot) (choice : Bool) (s : Handshake) : Option Handshake :=
  match s.points i with
  | .outside => none
  | .entering r next =>
    some (s.goto i (if s.depth r = 0 then .capturing r next else .raising r next))
  | .capturing r next =>
    some ({ s with
      threads := s.threads.modify r fun t => { t with snapshot := now } }.goto i (.raising r next))
  | .raising r next =>
    let s := (s.changeDepth r (· + 1)).goto i next
    match next with
    | .outside | .leaving _ => some (s.noteEntered r)
    | _ => some s
  | .polling r =>
    if s.safepoint.stopRequested then
      some ({ s with safepoint := s.safepoint.recordPoll }.goto i (.entering r (.leaving r)))
    else some (s.goto i .outside)
  | .leaving r =>
    match s.depth r with
    | 0 => some (s.goto i .outside)
    | 1 => some ((s.changeDepth r (· - 1)).goto i (.checking r))
    | _ => some (((s.changeDepth r (· - 1)).goto i .outside).noteLeft r)
  | .checking r =>
    if s.safepoint.stopRequested then some (s.goto i (.returning r))
    else some ((s.goto i .outside).noteLeft r)
  | .returning r =>
    let s := { s with safepoint := s.safepoint.recordPark }
    some ((s.changeDepth r (· + 1)).goto i (.waiting r))
  | .waiting r =>
    if s.lock.isNone then some ({ s with lock := some i }.goto i (.waited r)) else none
  | .waited r => some ({ s with lock := none }.goto i (.leaving r))
  | .acquiring record task =>
    if s.lock.isNone then some ({ s with lock := some i }.goto i (.holding record task))
    else some (s.goto i (parkThen record (.blocked record task)))
  | .blocked record task =>
    if s.lock.isNone then
      some ({ s with lock := some i }.goto i (unparkThen record (.holding record task)))
    else none
  | .lowering r next => some ((s.changeDepth r (· - 1)).goto i next)
  | .holding record task =>
    match task with
    | .brief => some (s.goto i .releasing)
    | .register id =>
      some ({ s with threads := (s.threads.insert id).toOption.getD s.threads }.goto i .releasing)
    | .unregister _ =>
      let threads := ((s.threads.remove i).toOption.map (·.2)).getD s.threads
      some ({ s with threads }.goto i .releasing)
    | .stopWorld patience =>
      some (s.goto i (parkThen record (.requesting record patience .releasing)))
    | .allocate collections =>
      match collections, choice with
      | n + 1, true =>
        let next := Point.holding record (.allocate n)
        some (s.goto i (parkThen record (.requesting record .forever next)))
      | _, _ => some (s.goto i .releasing)
  | .requesting record patience next =>
    some ({ s with safepoint := s.safepoint.request }.goto i
      (.surveying record patience next s.registeredRecords))
  | .surveying record patience next (r :: unread) =>
    some (s.goto i (if s.depth r = 0 then .retrying record patience next
      else .surveying record patience next unread))
  | .surveying record _ next [] =>
    some ({ s with safepoint := s.safepoint.achieve }.goto i (.stopped record next))
  | .retrying record patience next =>
    if patience = .limited ∧ choice then
      some ({ s with safepoint := s.safepoint.abandon }.goto i (unparkThen record next))
    else some (s.goto i (.surveying record patience next s.registeredRecords))
  | .stopped record next =>
    some ({ s with safepoint := s.safepoint.resume }.goto i (unparkThen record next))
  | .releasing => some ({ s with lock := none }.goto i .outside)

/-- The states that threads can bring about that make only calls of a certain kind. Snapshots show
a stack pointer. -/
inductive Reachable (may : Handshake → ThreadId → Call → Prop) : Handshake → Prop
  | start : Reachable may {}
  | call {s t : Handshake} (i : ThreadId) (c : Call) (before : Reachable may s)
      (allowed : may s i c) (taken : s.call i c = some t) : Reachable may t
  | advance {s t : Handshake} (i : ThreadId) (now : Snapshot) (choice : Bool)
      (before : Reachable may s) (shown : now.isCaptured = true)
      (taken : s.advance i now choice = some t) : Reachable may t

def anyCall : Handshake → ThreadId → Call → Prop := fun _ _ _ => True

/-- Calls that use no handle after its record was unregistered. -/
def currentCall : Handshake → ThreadId → Call → Prop :=
  fun s i c => ∀ id ∈ c.handle?, s.threads.current? i = some id

def IsBlocked (s : Handshake) (i : ThreadId) : Prop :=
  s.lock.isSome = true ∧
    ((∃ r, s.points i = .waiting r) ∨ ∃ record task, s.points i = .blocked record task)

end Handshake

end MarkSweep
