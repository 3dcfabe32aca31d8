import MarkSweep.Arena.Allocate
import MarkSweep.Mark.Phase
import MarkSweep.Mark.Pool
import MarkSweep.Safepoint
import MarkSweep.Stats
import MarkSweep.Thread.Registry

set_option autoImplicit false

/-!
# The heap

The heap joins the arena with the roots and threads that keep its blocks alive. This module holds
the state of a heap, its toggles, roots, handles and queries; threads, collections, allocation and
dumps have modules of their own.

An operation returns the heap as it leaves it, also when it fails.
-/

namespace MarkSweep

/-- The program that the heap is part of, as far as one operation of the heap sees it. -/
structure Embedding extends MarkContext where
  slotAddr : RootSlot → UInt64
  host : Host
  hostAgain : Host
  /-- How the marking threads empty the mark stack, alone or together. -/
  drain : Marker → Except Error Nat × Marker := Marker.drainAll toMarkContext
  nanos : Nat := 0

/-- Whether an embedding can be relied on: both of its hosts are sound, blocks around addresses
are found as the arena finds them, and the mark stack is emptied as marking threads do. -/
def Embedding.IsSound (env : Embedding) : Prop :=
  env.host.IsSound ∧ env.hostAgain.IsSound ∧ env.resolve = Arena.resolveInterior ∧
    ∀ m, Marker.Emptied env.toMarkContext m (env.drain m)

structure Heap where
  config : Config
  flags : Flags
  arena : Arena
  pending : MarkStack := {}
  roots : Roots := {}
  threads : Threads := {}
  handles : Std.ExtTreeMap HandleId UInt64 := ∅
  nextHandle : HandleId := 0
  safepoint : Safepoint := {}
  stats : Stats := {}

namespace Heap

def new (config : Config) : Except ConfigError Heap := do
  config.check
  return { config, flags := config.flags
           arena := Arena.new config.hugeThreshold config.heapLimit }

def setFlags (flags : Flags) (h : Heap) : Heap := { h with flags }

def markThreads (h : Heap) : Nat := h.config.markThreads

def text (h : Heap) : String :=
  s!"Heap \x7b threads: {h.threads.size}, flags: {h.flags.text}, .. \x7d"

def slotValue (around : Surroundings) (h : Heap) : RootSlot → UInt64
  | .cell addr => around.word addr
  | .handle id => h.handles.getD id 0
  | .exception id => ((h.threads.record? id).map (·.exception)).getD 0
  | .handler id => ((h.threads.record? id).map (·.handler)).getD 0

def rootValues (around : Surroundings) (h : Heap) : List UInt64 :=
  h.roots.slots.toList.map (h.slotValue around)

def addRoot (addr : Addr) (h : Heap) : Heap :=
  match RootSlot.atAddr? addr with
  | some slot => { h with roots := h.roots.add slot }
  | none => h

def removeRoot (addr : Addr) (h : Heap) : Heap :=
  match RootSlot.atAddr? addr with
  | some slot => { h with roots := h.roots.erase slot }
  | none => h

def root (value : UInt64) (h : Heap) : HandleId × Heap :=
  (h.nextHandle,
    { h with
      roots := h.roots.add (.handle h.nextHandle)
      handles := h.handles.insert h.nextHandle value
      nextHandle := h.nextHandle + 1 })

def handle? (id : HandleId) (h : Heap) : Option UInt64 := h.handles[id]?

def setHandle (id : HandleId) (value : UInt64) (h : Heap) : Heap :=
  if h.handles.contains id then { h with handles := h.handles.insert id value } else h

def dropHandle (id : HandleId) (h : Heap) : Bool × Heap :=
  if h.handles.contains id then
    (true, { h with roots := h.roots.erase (.handle id), handles := h.handles.erase id })
  else (false, h)

open Text in
def handleText (slotAddr value : UInt64) : String :=
  s!"GcHandle \x7b slot: {hex slotAddr.toNat}, value: {hex value.toNat} \x7d"

def isLive (addr : Addr) (h : Heap) : Bool := h.arena.isBlockStart addr

def isManaged (addr : Addr) (h : Heap) : Bool := (h.arena.blockAround? addr).isSome

def blockSizeOf? (addr : Addr) (h : Heap) : Option Nat :=
  (h.arena.blockAround? addr).map (·.size)

def statsText (h : Heap) : String := h.stats.text h.arena.slabs.size h.arena.privateBytes

end Heap

end MarkSweep
