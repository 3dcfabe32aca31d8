import MarkSweep.Heap.Threads

set_option autoImplicit false

namespace MarkSweep

inductive Stop
  | achieved
  | abandoned
  | waits
deriving DecidableEq, Repr

structure CollectionReport where
  mark : MarkReport
  sweep : SweepReport
deriving DecidableEq, Repr

/-- What other threads do during a collection. -/
structure Bystanders (α : Type) where
  whileStopping : Heap → Heap
  whileStopped : Heap → α × Heap

def Bystanders.none : Bystanders Unit where
  whileStopping h := h
  whileStopped h := ((), h)

namespace Heap

def stopWorld (patience : Patience) (whileStopping : Heap → Heap) (h : Heap) : Stop × Heap :=
  let stopping := whileStopping { h with safepoint := h.safepoint.request }
  if stopping.threads.allParked then
    (.achieved, { stopping with safepoint := stopping.safepoint.achieve })
  else
    match patience with
    | .limited => (.abandoned, { stopping with safepoint := stopping.safepoint.abandon })
    | .forever => (.waits, h)

def resumeWorld (h : Heap) : Heap := { h with safepoint := h.safepoint.resume }

def mark (env : Embedding) (h : Heap) : Except Error MarkReport × Heap :=
  let m : Marker := { arena := h.arena.clearMarks, pending := h.pending }
  match m.markPhaseBy env.drain env.toMarkContext (h.rootValues env.toSurroundings)
    h.threads.active with
  | (result, m) => (result, { h with arena := m.arena, pending := m.pending })

def sweep (h : Heap) : SweepReport × Heap :=
  match h.arena.sweep with
  | (report, arena) => (report, { h with arena })

/-- A collection by a thread that counts as parked. There is no report if the world did not
stop. -/
def collectParked {α : Type} (env : Embedding) (patience : Patience) (others : Bystanders α)
    (h : Heap) : Outcome (Option (CollectionReport × α)) × Heap :=
  match h.stopWorld patience others.whileStopping with
  | (.waits, h) => (.waits, h)
  | (.abandoned, h) => (.done none, h)
  | (.achieved, h) =>
    match h.mark env with
    | (.error e, h) => (.failed e, h.resumeWorld)
    | (.ok mark, h) =>
      match others.whileStopped h with
      | (a, h) =>
        match h.sweep with
        | (sweep, h) =>
          let h := h.resumeWorld
          (.done (some ({ mark, sweep }, a)),
            { h with stats := h.stats.recordCollection env.nanos sweep })

def collectAmong {α : Type} (env : Embedding) (caller : Option Caller) (patience : Patience)
    (others : Bystanders α) (h : Heap) : Outcome (Option (CollectionReport × α)) × Heap :=
  h.whileParked caller (collectParked env patience others)

def collect (env : Embedding) (caller : Option Caller) (patience : Patience) (h : Heap) :
    Outcome (Option CollectionReport) × Heap :=
  match h.collectAmong env caller patience Bystanders.none with
  | (result, h) => (result.map (·.map (·.1)), h)

/-- Whether so much was allocated since the last collection that another is due: more than a
fraction of the bytes, or of the blocks, that the arena has. -/
def collectionIsDue (h : Heap) : Bool :=
  let bytes := h.stats.bytesSinceMark.toFloat
  let blocks := h.stats.blocksSinceMark.toFloat
  let size := h.arena.stats
  if bytes < (UInt64.ofNat h.config.triggerFloor).toFloat then false
  else
    bytes > (UInt64.ofNat size.privateBytes).toFloat * h.config.markThreshold ||
      blocks > (UInt64.ofNat size.blockCapacity).toFloat * h.config.markThreshold

def maybeCollect (env : Embedding) (caller : Option Caller) (h : Heap) :
    Outcome Bool × Heap :=
  if h.flags.noMark then (.done false, h)
  else if h.flags.forceMajor || h.collectionIsDue then
    match h.collect env caller .forever with
    | (result, h) => (result.map fun _ => true, h)
  else (.done false, h)

end Heap

end MarkSweep
