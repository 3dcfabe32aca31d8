import MarkSweep.Roots

set_option autoImplicit false

namespace MarkSweep

structure Threads where
  records : Array ThreadRecord := #[]
  registered : List (ThreadId × RecordId) := []
deriving Inhabited

namespace Threads

def record? (t : Threads) (id : RecordId) : Option ThreadRecord := t.records[id]?

def create (t : Threads) (r : ThreadRecord) : RecordId × Threads :=
  (t.records.size, { t with records := t.records.push r })

def modify (t : Threads) (id : RecordId) (f : ThreadRecord → ThreadRecord) : Threads :=
  { t with records := t.records.modify id f }

def current? (t : Threads) (thread : ThreadId) : Option RecordId :=
  t.registered.lookup thread

/-- Registers a record for its thread. A thread that has one already is refused. -/
def insert (t : Threads) (id : RecordId) : Except Error Threads :=
  match t.record? id with
  | none => .ok t
  | some r =>
    match t.current? r.thread with
    | some _ => .error (.alreadyRegistered r.name)
    | none => .ok { t with registered := t.registered ++ [(r.thread, id)] }

def remove (t : Threads) (thread : ThreadId) : Except Error (RecordId × Threads) :=
  match t.current? thread with
  | none => .error (.notRegistered s!"ThreadId({thread})")
  | some id => .ok (id, { t with registered := t.registered.filter fun e => e.1 ≠ thread })

def active (t : Threads) : List ThreadRecord :=
  t.registered.filterMap fun e => t.record? e.2

def size (t : Threads) : Nat := t.registered.length

def allParked (t : Threads) : Bool := t.active.all (·.isParked)

def runningCount (t : Threads) : Nat := t.active.countP (!·.isParked)

def park (t : Threads) (id : RecordId) (now : Snapshot) : Threads := t.modify id (·.park now)

def unpark (t : Threads) (id : RecordId) : Except Error Nat × Threads :=
  match t.record? id with
  | none => (.error .unbalancedBlocking, t)
  | some r =>
    match r.unpark with
    | .error e => (.error e, t)
    | .ok r' => (.ok r.depth, t.modify id fun _ => r')

def depth (t : Threads) (id : RecordId) : Nat := ((t.record? id).map (·.depth)).getD 0

/-- The counter of 32 bits that keeps the depth. At 2^32 it would be back at zero. -/
def counter (t : Threads) (id : RecordId) : UInt32 := .ofNat (t.depth id)

theorem counter_eq_zero_iff {t : Threads} {id : RecordId} (fits : t.depth id < UInt32.size) :
    t.counter id = 0 ↔ t.depth id = 0 := by
  rw [← UInt32.toNat_inj, counter, UInt32.toNat_ofNat_of_lt' fits]
  rfl

theorem counter_ne_zero {t : Threads} {id : RecordId} (deep : 1 ≤ t.depth id)
    (fits : t.depth id < UInt32.size) : t.counter id ≠ 0 :=
  fun zero => Nat.ne_of_gt deep ((counter_eq_zero_iff fits).1 zero)

end Threads

end MarkSweep
