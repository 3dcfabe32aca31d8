import MarkSweep.Heap.Collect

set_option autoImplicit false

namespace MarkSweep

namespace Heap

def allocateNow (host : Host) (size : Nat) (kind : BlockKind) (h : Heap) :
    Except Error Block × Heap :=
  match h.arena.allocate host size kind with
  | (.error e, arena) => (.error e, { h with arena })
  | (.ok b, arena) => (.ok b, { h with arena, stats := h.stats.recordAllocation b.size })

def allocate (env : Embedding) (caller : Option Caller) (size : Nat) (kind : BlockKind)
    (h : Heap) : Outcome Block × Heap :=
  match h.maybeCollect env caller with
  | (.waits, h) => (.waits, h)
  | (.failed e, h) => (.failed e, h)
  | (.done _, h) =>
    match h.allocateNow env.host size kind with
    | (.ok b, h) => (.done b, h)
    | (.error e, h) =>
      if e.isExhaustion then
        match h.collect env caller .forever with
        | (.waits, h) => (.waits, h)
        | (.failed e, h) => (.failed e, h)
        | (.done _, h) =>
          match h.allocateNow env.hostAgain size kind with
          | (result, h) => (.ofExcept result, h)
      else (.failed e, h)

end Heap

end MarkSweep
