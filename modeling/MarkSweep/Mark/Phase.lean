import MarkSweep.Mark

set_option autoImplicit false

namespace MarkSweep

structure MarkReport where
  roots : Nat := 0
  threads : Nat := 0
  stackWords : Nat := 0
  marked : Nat := 0
deriving DecidableEq, Repr, Inhabited

namespace Marker

def scanThreads (ctx : MarkContext) : List ThreadRecord → Marker → Except Error Nat × Marker
  | [], m => (.ok 0, m)
  | r :: rest, m =>
    match m.scanThread ctx r with
    | (.error e, m) => (.error e, m)
    | (.ok words, m) =>
      match scanThreads ctx rest m with
      | (.error e, m) => (.error e, m)
      | (.ok more, m) => (.ok (words + more), m)

/-- Marks all that the roots and the threads reach. What an earlier phase left on the stack is
dropped first; marks must be clear. `drain` empties the stack in the end. -/
def markPhaseBy (drain : Marker → Except Error Nat × Marker) (ctx : MarkContext)
    (roots : List UInt64) (threads : List ThreadRecord) (m : Marker) :
    Except Error MarkReport × Marker :=
  match ({ m with pending := {} } : Marker).markEach roots |>.scanThreads ctx threads with
  | (.error e, m) => (.error e, m)
  | (.ok stackWords, m) =>
    match drain m with
    | (.error e, m) => (.error e, m)
    | (.ok marked, m) =>
      (.ok { roots := roots.length, threads := threads.length, stackWords, marked }, m)

def markPhase (ctx : MarkContext) (roots : List UInt64) (threads : List ThreadRecord)
    (m : Marker) : Except Error MarkReport × Marker :=
  m.markPhaseBy (drainAll ctx) ctx roots threads

end Marker

end MarkSweep
