import MarkSweep.Heap
import MarkSweep.Outcome

set_option autoImplicit false

namespace MarkSweep

/-- A thread that calls the heap under a record, and what its machine shows if it has to park. -/
structure Caller where
  record : RecordId
  now : Snapshot

inductive Leaving
  | left
  | waits
deriving DecidableEq, Repr

namespace Heap

/-- How a thread calls the heap: under its record, if it is registered. -/
def callerOn (thread : ThreadId) (now : Snapshot) (h : Heap) : Option Caller :=
  (h.threads.current? thread).map fun record => { record, now }

def register (thread : ThreadId) (name : String) (stackTop : Addr) (h : Heap) :
    Except Error RecordId × Heap :=
  match h.threads.current? thread with
  | some id =>
    (.error (.alreadyRegistered (((h.threads.record? id).map (·.name)).getD name)), h)
  | none =>
    match h.threads.create { thread, name, stackTop } with
    | (id, threads) =>
      match threads.insert id with
      | .error e => (.error e, { h with threads })
      | .ok threads =>
        (.ok id, { h with threads, roots := (h.roots.add (.exception id)).add (.handler id) })

def unregister (id : RecordId) (h : Heap) : Except Error Unit × Heap :=
  match h.threads.record? id with
  | none => (.error (.notRegistered ""), h)
  | some r =>
    if !r.attached then (.error (.notRegistered r.name), h)
    else
      let h := { h with threads := h.threads.modify id fun r => { r with attached := false } }
      match h.threads.remove r.thread with
      | .error e => (.error e, h)
      | .ok (_, threads) =>
        (.ok (), { h with
          threads, roots := (h.roots.erase (.exception id)).erase (.handler id) })

def setException (id : RecordId) (value : UInt64) (h : Heap) : Heap :=
  { h with threads := h.threads.modify id fun r => { r with exception := value } }

def setHandler (id : RecordId) (value : UInt64) (h : Heap) : Heap :=
  { h with threads := h.threads.modify id fun r => { r with handler := value } }

def enter (c : Caller) (h : Heap) : Heap :=
  { h with threads := h.threads.park c.record c.now }

def unpark (id : RecordId) (h : Heap) : Except Error Nat × Heap :=
  match h.threads.unpark id with
  | (result, threads) => (result, { h with threads })

/-- Leaves a blocking scope. From the outermost one a thread comes out only while the safepoint is
idle; else it goes back in and waits. -/
def leave (id : RecordId) (h : Heap) : Except Error Leaving × Heap :=
  match h.unpark id with
  | (.error e, h) => (.error e, h)
  | (.ok previous, h) =>
    if 1 < previous || !h.safepoint.stopRequested then (.ok .left, h)
    else
      (.ok .waits, { h with
        threads := h.threads.modify id ThreadRecord.repark
        safepoint := h.safepoint.recordPark })

def poll (c : Caller) (h : Heap) : Except Error Leaving × Heap :=
  if h.safepoint.stopRequested then
    ({ h with safepoint := h.safepoint.recordPoll }.enter c).leave c.record
  else (.ok .left, h)

/-- Runs an operation with the calling thread parked, so that its own stack counts. -/
def whileParked {α : Type} (caller : Option Caller) (operation : Heap → Outcome α × Heap)
    (h : Heap) : Outcome α × Heap :=
  match caller with
  | none => operation h
  | some c =>
    match operation (h.enter c) with
    | (.waits, _) => (.waits, h)
    | (result, h) =>
      match h.unpark c.record with
      | (.error e, h) => (.failed e, h)
      | (.ok _, h) => (result, h)

def mutatorText (r : ThreadRecord) : String := s!"Mutator({r.text})"

end Heap

end MarkSweep
