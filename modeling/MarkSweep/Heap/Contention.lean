import MarkSweep.Heap.Allocate

set_option autoImplicit false

namespace MarkSweep

namespace Heap

/-- A collection during which running threads poll. Each parks at its poll, and leaves its scope
when the collection has ended. -/
def collectPolled (env : Embedding) (caller : Option Caller) (pollers : List Caller) (h : Heap) :
    Outcome (Option CollectionReport) × Heap :=
  let others : Bystanders Unit :=
    { whileStopping := fun h => pollers.foldl (fun h c => (h.poll c).2) h
      whileStopped := fun h => ((), h) }
  match h.collectAmong env caller .forever others with
  | (.waits, h) => (.waits, h)
  | (result, h) =>
    (result.map (·.map (·.1)), pollers.foldl (fun h c => (h.leave c.record).2) h)

/-- A collection during which a parked thread leaves a scope. If that is its outermost one it
comes out when the collection has ended. -/
def collectLeft (env : Embedding) (caller : Option Caller) (visitor : RecordId) (h : Heap) :
    Outcome (Option (CollectionReport × Except Error Unit)) × Heap :=
  let others : Bystanders (Except Error Leaving) :=
    { whileStopping := fun h => h
      whileStopped := fun h => h.leave visitor }
  match h.collectAmong env caller .forever others with
  | (.done (some (report, .ok .waits)), h) =>
    match h.leave visitor with
    | (result, h) => (.done (some (report, result.map fun _ => ())), h)
  | (result, h) => (result.map (·.map fun r => (r.1, r.2.map fun _ => ())), h)

/-- A collection during which another thread asks for a block. It parks while it waits for the
collector, and its request is served when the collection has ended. -/
def collectAllocating (env : Embedding) (caller visitor : Option Caller) (size : Nat)
    (kind : BlockKind) (h : Heap) :
    Outcome (Option (CollectionReport × Outcome Block)) × Heap :=
  let others : Bystanders Unit :=
    { whileStopping := fun h => h
      whileStopped := fun h => ((), visitor.elim h h.enter) }
  match h.collectAmong env caller .forever others with
  | (.done (some (report, ())), h) =>
    let h := visitor.elim h fun c => (h.unpark c.record).2
    match h.allocate env visitor size kind with
    | (result, h) => (.done (some (report, result)), h)
  | (.done none, h) => (.done none, h)
  | (.failed e, h) => (.failed e, h)
  | (.waits, h) => (.waits, h)

end Heap

end MarkSweep
