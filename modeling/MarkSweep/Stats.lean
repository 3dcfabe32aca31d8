import MarkSweep.Arena.Sweep
import MarkSweep.Text.Quantity

set_option autoImplicit false

namespace MarkSweep

structure Stats where
  bytesAllocated : UInt64 := 0
  blocksAllocated : UInt64 := 0
  bytesSinceMark : UInt64 := 0
  blocksSinceMark : UInt64 := 0
  collections : UInt64 := 0
  totalNanos : UInt64 := 0
  maxNanos : UInt64 := 0
  bytesAtLastMark : UInt64 := 0
  liveBytes : UInt64 := 0
  liveBlocks : UInt64 := 0
  bytesFreed : UInt64 := 0
  blocksFreed : UInt64 := 0
  pagesReleased : UInt64 := 0
deriving DecidableEq, Repr, Inhabited

namespace Stats

def recordAllocation (size : Nat) (s : Stats) : Stats :=
  { s with
    bytesAllocated := s.bytesAllocated + .ofNat size
    blocksAllocated := s.blocksAllocated + 1
    bytesSinceMark := s.bytesSinceMark + .ofNat size
    blocksSinceMark := s.blocksSinceMark + 1 }

def recordCollection (nanos : Nat) (sweep : SweepReport) (s : Stats) : Stats :=
  { s with
    collections := s.collections + 1
    totalNanos := s.totalNanos + .ofNat nanos
    maxNanos := max s.maxNanos (.ofNat nanos)
    liveBytes := .ofNat sweep.liveBytes
    liveBlocks := .ofNat sweep.liveBlocks
    bytesFreed := s.bytesFreed + .ofNat sweep.freedBytes
    blocksFreed := s.blocksFreed + .ofNat sweep.freedBlocks
    pagesReleased := s.pagesReleased + .ofNat sweep.pagesReleased
    bytesSinceMark := 0
    blocksSinceMark := 0
    bytesAtLastMark := s.bytesAllocated }

def averageNanos (s : Stats) : UInt64 := s.totalNanos / s.collections

def hasLastMark (s : Stats) : Bool := s.collections ≠ 0

open Text in
def text (pages privateBytes : Nat) (s : Stats) : String :=
  "=== GC Statistics ===\n" ++
  s!"Heap: {pages} pages, {byteCount privateBytes}\n" ++
  s!"Allocations: {s.blocksAllocated} blocks, {byteCount s.bytesAllocated.toNat}\n" ++
  s!"Live: {s.liveBlocks} blocks, {byteCount s.liveBytes.toNat}\n" ++
  s!"Freed: {s.blocksFreed} blocks, {byteCount s.bytesFreed.toNat}, " ++
    s!"{s.pagesReleased} pages released\n" ++
  s!"Collections: {s.collections} major, {duration s.totalNanos.toNat} total, " ++
    s!"{duration s.maxNanos.toNat} max"

end Stats

end MarkSweep
