import MarkSweep.TypeLayout
import MarkSweep.Error

set_option autoImplicit false

namespace MarkSweep

/-- The memory around the heap, as far as the collector reads it: words of thread stacks and of
root cells, and the layouts that typed blocks name in their first word. -/
structure Surroundings where
  word : Addr → UInt64
  layout? : UInt64 → Option TypeLayout

structure Snapshot where
  registers : Vector UInt64 12 := .replicate 12 0
  sp : Addr := 0
  below : Vector UInt64 16 := .replicate 16 0
deriving DecidableEq, Repr, Inhabited

namespace Snapshot

def isCaptured (s : Snapshot) : Bool := s.sp ≠ 0

def words (s : Snapshot) : List UInt64 := s.registers.toList ++ s.below.toList

theorem length_words (s : Snapshot) : s.words.length = 28 := by simp [words]

end Snapshot

abbrev ThreadId := Nat

structure ThreadRecord where
  thread : ThreadId
  name : String
  stackTop : Addr
  /-- How many blocking scopes the thread is in: fewer than 2^32, since the counter that keeps the
  depth has 32 bits. -/
  depth : Nat := 0
  snapshot : Snapshot := {}
  exception : UInt64 := 0
  handler : UInt64 := 0
  attached : Bool := true
deriving Repr, Inhabited

/-- Longest stretch of stack that is scanned; longer ones have bogus bounds. -/
def maxStackSpan : Nat := 1024 * 1024 * 1024

namespace ThreadRecord

def isParked (r : ThreadRecord) : Bool := 0 < r.depth

/-- Enters a blocking scope. Only the outermost entry takes a snapshot, of what the machine shows
now. -/
def park (now : Snapshot) (r : ThreadRecord) : ThreadRecord :=
  { r with depth := r.depth + 1, snapshot := if r.depth = 0 then now else r.snapshot }

def unpark (r : ThreadRecord) : Except Error ThreadRecord :=
  if r.depth = 0 then .error .unbalancedBlocking else .ok { r with depth := r.depth - 1 }

/-- Enters the scope just left, with the snapshot as it is. -/
def repark (r : ThreadRecord) : ThreadRecord := { r with depth := r.depth + 1 }

def scanStart (r : ThreadRecord) : Addr := r.snapshot.sp / wordBytes * wordBytes

def stackIsPlausible (r : ThreadRecord) : Bool :=
  r.scanStart < r.stackTop && r.stackTop - r.scanStart ≤ maxStackSpan

/-- The addresses of the whole words between the stack pointer and the top of the stack. A cursor
that is a machine word goes through the same ones as long as it can be moved beyond the top. -/
def stackAddrs (r : ThreadRecord) : List Addr :=
  (List.range ((r.stackTop - r.scanStart) / wordBytes)).map fun k => r.scanStart + k * wordBytes

/-- The words of a parked thread that may be references: its stack, then the words saved in the
snapshot. A thread without a snapshot has none. -/
def scannedWords (around : Surroundings) (r : ThreadRecord) : Except Error (List UInt64) :=
  if !r.snapshot.isCaptured then .ok []
  else if r.stackIsPlausible then .ok (r.stackAddrs.map around.word ++ r.snapshot.words)
  else .error (.corruption (.stackBounds r.name r.scanStart r.stackTop))

open Text in
def text (r : ThreadRecord) : String :=
  s!"ThreadRecord \x7b name: {quote r.name}, stack_top: {hex r.stackTop}, depth: {r.depth} \x7d"

theorem depth_park (now : Snapshot) (r : ThreadRecord) : (r.park now).depth = r.depth + 1 := rfl

end ThreadRecord

end MarkSweep
