import MarkSweep.Mark.Pool

set_option autoImplicit false

namespace MarkSweep

/-- Portions of a list, all of one size: one for each worker in turn. -/
def portions (count : Nat) : List Nat → List Addr → List (Nat × List Addr)
  | [], _ => []
  | i :: rest, addrs => (i, addrs.take count) :: portions count rest (addrs.drop count)

namespace MarkStack

/-- Sends a share to each of some workers in place, from a stack whose memory has room for so many
entries. Returns nothing if a share comes back and finds no room. -/
def handOutInPlace? (capacity : Nat) (accepts : Nat → Bool) (count : Nat) :
    List Nat → UInt64 → MarkStack → Option Handout
  | [], active, s => some { active, pending := s }
  | i :: rest, active, s =>
    match s.takeOldest count with
    | (batch, s) =>
      let raised := Word.withBit active i
      if accepts i then
        (handOutInPlace? capacity accepts count rest raised s).map fun others =>
          { others with batches := (i, batch) :: others.batches }
      else if capacity - s.size < batch.length then none
      else
        handOutInPlace? capacity accepts count rest (Word.withoutBit raised i) (s.extend batch)

def dispatchInPlace? (capacity minDispatch workers : Nat) (accepts : Nat → Bool)
    (active : UInt64) (s : MarkStack) : Option Handout :=
  let resting := restingWorkers workers active
  let count := s.size / (resting.length + 1)
  if s.size < minDispatch || resting.isEmpty || count = 0 then some { active, pending := s }
  else s.handOutInPlace? capacity accepts count resting active

end MarkStack

namespace Pool

def accepts (p : Pool) (i : Nat) : Bool := (p.workers[i]?.map (·.stage)) ≠ some .lost

def receive (p : Pool) (b : Nat × List Addr) : Pool :=
  p.modifyWorker b.1 fun w => { w with inbox := w.inbox ++ [b.2] }

def deliver (h : Handout) (p : Pool) : Pool :=
  h.batches.foldl receive
    { p with active := h.active, scanner := { p.scanner with pending := h.pending } }

end Pool

end MarkSweep
