import MarkSweep.Dump.Writer
import MarkSweep.Heap.Collect

set_option autoImplicit false

namespace MarkSweep

def Slab.liveBytes (s : Slab) : List UInt8 :=
  (List.range ((s.page.blockCount + 7) / 8)).map fun k =>
    (List.range 8).foldl
      (fun b i => if s.isAllocated (8 * k + i) then b ||| (1 <<< UInt8.ofNat i) else b) 0

/-- A slab in a dump. Block sizes beyond 32 bits are written as the largest number that fits. -/
def Slab.record (s : Slab) : PageRecord where
  base := .ofNat s.page.base
  size := .ofNat s.page.size
  kind := .ofNat s.page.kind.code
  scanKind := .ofNat s.page.kind.contents.code
  blockSize := .ofNat (min s.page.blockSize (UInt32.size - 1))
  blockCount := s.page.blockCount
  live := s.liveBytes

def Slab.typeWords (s : Slab) : List UInt64 :=
  if s.page.kind.contents = .typed then
    (((List.range s.page.blockCount).filter s.isAllocated).map fun i =>
      s.read (s.page.blockAddr i)).filter (· ≠ 0)
  else []

def ThreadRecord.image (r : ThreadRecord) : ThreadImage where
  stackTop := .ofNat r.stackTop
  sp := .ofNat r.snapshot.sp
  words := r.snapshot.words

def TypeLayout.image (identity : UInt64) (t : TypeLayout) : TypeImage where
  identity := identity
  name := t.name
  mapOffset := t.mapOffset
  pointerMap := t.pointerMap.words.toList

namespace Heap

def wideWords : UInt16 := 1

def typesInUse (h : Heap) : List UInt64 :=
  (h.arena.slabs.toList.flatMap (·.typeWords)).eraseDups

/-- The picture of the heap: pages by address, roots in order of registration, threads, and the
types in use. -/
def image (env : Embedding) (h : Heap) : HeapDump where
  flags := wideWords
  pages := (h.arena.slabs.toList.mergeSort fun s t => s.page.base ≤ t.page.base).map (·.record)
  roots := h.roots.slots.toList.map fun slot =>
    (env.slotAddr slot, h.slotValue env.toSurroundings slot)
  threads := h.threads.active.map (·.image)
  types := h.typesInUse.filterMap fun w => (env.layout? w).map (·.image w)

def dump (env : Embedding) (caller : Option Caller) (limit : Option Nat) (h : Heap) :
    Outcome (List UInt8 × Except DumpError Unit) × Heap :=
  h.whileParked caller fun h =>
    match h.stopWorld .forever (fun h => h) with
    | (.achieved, h) => (.done ((h.image env).encode.send limit), h.resumeWorld)
    | (_, h) => (.waits, h)

/-- Hands a dump to a receiver of any kind, for a thread that counts as parked. Running threads poll
before the world has stopped. -/
def dumpParked {α : Type} (env : Embedding) (pollers : List Caller) (receive : Written → α)
    (h : Heap) : Outcome α × Heap :=
  match h.stopWorld .forever fun h => pollers.foldl (fun h c => (h.poll c).2) h with
  | (.achieved, h) => (.done (receive (h.image env).encode), h.resumeWorld)
  | (_, h) => (.waits, h)

def dumpPolled {α : Type} (env : Embedding) (caller : Option Caller) (pollers : List Caller)
    (receive : Written → α) (h : Heap) : Outcome α × Heap :=
  match h.whileParked caller (dumpParked env pollers receive) with
  | (.waits, h) => (.waits, h)
  | (result, h) => (result, pollers.foldl (fun h c => (h.leave c.record).2) h)

end Heap

end MarkSweep
