import MarkSweep.Error
import MarkSweep.Total

set_option autoImplicit false

namespace MarkSweep

structure PageRecord where
  base : UInt64
  size : UInt64
  kind : UInt8
  scanKind : UInt8
  blockSize : UInt32
  blockCount : Nat
  /-- A bit for each block, eight to a byte, set when the block is in use. -/
  live : List UInt8
deriving DecidableEq, Repr, Inhabited

structure ThreadImage where
  stackTop : UInt64
  sp : UInt64
  words : List UInt64
deriving DecidableEq, Repr, Inhabited

structure TypeImage where
  identity : UInt64
  name : String
  mapOffset : Nat
  pointerMap : List UInt64
deriving DecidableEq, Repr, Inhabited

structure HeapDump where
  flags : UInt16
  pages : List PageRecord
  roots : List (UInt64 × UInt64)
  threads : List ThreadImage
  types : List TypeImage
deriving DecidableEq, Repr, Inhabited

namespace PageRecord

def isLive (p : PageRecord) (index : Nat) : Bool :=
  match p.live[index / 8]? with
  | some b => b.toNat.testBit (index % 8)
  | none => false

def liveCount (p : PageRecord) : Nat :=
  total (fun b => (List.range 8).countP b.toNat.testBit) p.live

def contains (p : PageRecord) (a : UInt64) : Bool := p.base ≤ a && a < p.base + p.size

end PageRecord

def HeapDump.pageOf? (d : HeapDump) (a : UInt64) : Option Nat :=
  d.pages.findIdx? (·.contains a)

def dumpMagic : List UInt8 := [0x50, 0x47, 0x43, 0x44]

def dumpVersion : Nat := 1

end MarkSweep
