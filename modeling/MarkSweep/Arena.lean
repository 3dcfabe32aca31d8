import MarkSweep.Directory
import MarkSweep.Slab
import MarkSweep.Total

set_option autoImplicit false

/-!
# The arena

The arena is the memory of the heap: the slabs it owns, the directory that finds their pages, and
what makes allocation quick. It answers the two questions marking asks of an address: does an
allocated block start there, and which allocated block lies around it.
-/

namespace MarkSweep

def minBlock : Nat := 16

def maxRequest : Nat := 1024 * 1024 * 1024 * 1024

structure SizeClass where
  kind : BlockKind
  blockSize : Nat
deriving DecidableEq, Repr

instance : Ord SizeClass := ⟨compareLex (compareOn (·.kind.code)) (compareOn (·.blockSize))⟩

instance transOrdSizeClass : Std.TransOrd SizeClass :=
  inferInstanceAs (Std.TransCmp (compareLex (compareOn fun c : SizeClass => c.kind.code)
    (compareOn (·.blockSize))))

instance lawfulEqOrdSizeClass : Std.LawfulEqOrd SizeClass where
  eq_of_compare {c d} same := by
    have parts : (compare c.kind.code d.kind.code).then (compare c.blockSize d.blockSize) = .eq :=
      same
    rw [Ordering.then_eq_eq, Nat.compare_eq_eq, Nat.compare_eq_eq] at parts
    obtain ⟨kind, blockSize⟩ := c
    obtain ⟨kind', blockSize'⟩ := d
    exact SizeClass.mk.injEq .. ▸ ⟨BlockKind.code_inj.1 parts.1, parts.2⟩

def nextPowerOfTwo (n : Nat) : Nat := if n ≤ 1 then 1 else 1 <<< ((n - 1).log2 + 1)

def SizeClass.of (kind : BlockKind) (size : Nat) : SizeClass where
  kind := kind
  blockSize := nextPowerOfTwo (max size minBlock)

theorem le_nextPowerOfTwo (n : Nat) : n ≤ nextPowerOfTwo n := by
  unfold nextPowerOfTwo
  split
  · next small => exact small
  · have := Nat.lt_log2_self (n := n - 1)
    rw [Nat.one_shiftLeft]
    omega

theorem nextPowerOfTwo_le {n m : Nat} (power : m.isPowerOfTwo) (h : n ≤ m) :
    nextPowerOfTwo n ≤ m := by
  obtain ⟨k, rfl⟩ := power
  unfold nextPowerOfTwo
  split
  · exact Nat.one_le_two_pow
  · have below : (n - 1).log2 < k := (Nat.log2_lt (by omega)).2 (by omega)
    rw [Nat.one_shiftLeft]
    exact Nat.pow_le_pow_right (by decide) below

theorem isPowerOfTwo_nextPowerOfTwo (n : Nat) : (nextPowerOfTwo n).isPowerOfTwo := by
  unfold nextPowerOfTwo
  split
  · exact ⟨0, rfl⟩
  · exact ⟨_, Nat.one_shiftLeft _⟩

structure Block where
  addr : Addr
  size : Nat
deriving DecidableEq, Repr, Inhabited

structure Arena where
  hugeThreshold : Nat
  heapLimit : Nat
  directory : Directory := {}
  slabs : Array Slab := #[]
  byBase : Std.ExtTreeMap Addr Nat := ∅
  /-- The slabs with free blocks of a class, the one to try first in front. -/
  roomy : Std.ExtTreeMap SizeClass (List Nat) := ∅
  privateBytes : Nat := 0
  liveBlocks : Nat := 0
  liveBytes : Nat := 0
  mapped : Nat := 0

structure ArenaStats where
  pages : Nat
  privateBytes : Nat
  blockCapacity : Nat
  liveBlocks : Nat
  liveBytes : Nat
deriving DecidableEq, Repr

namespace Arena

def new (hugeThreshold heapLimit : Nat) : Arena where
  hugeThreshold := hugeThreshold
  heapLimit := heapLimit

instance : Inhabited Arena := ⟨new 4096 0⟩

def slab? (a : Arena) (p : Page) : Option Slab :=
  match a.byBase[p.base]? with
  | some i => a.slabs[i]?
  | none => none

def roomyIn (a : Arena) (c : SizeClass) : List Nat := a.roomy.getD c []

def isAllocated (a : Arena) (p : Page) (index : Nat) : Bool :=
  match a.slab? p with
  | some s => index < p.blockCount && s.allocated.get index
  | none => false

def blockId? (a : Arena) (p : Page) (addr : Addr) : Option Nat :=
  (p.blockStarting? addr).filter (a.isAllocated p)

/-- The start of the allocated block of a page around an address. -/
def resolveInterior (a : Arena) (p : Page) (addr : Addr) : Option Addr :=
  ((p.blockAround? addr).filter (a.isAllocated p)).map p.blockAddr

def isBlockStart (a : Arena) (addr : Addr) : Bool :=
  match a.directory.lookup addr with
  | some p => (a.blockId? p addr).isSome
  | none => false

def blockAround? (a : Arena) (addr : Addr) : Option Block :=
  match a.directory.lookup addr with
  | some p => (a.resolveInterior p addr).map fun start => ⟨start, p.blockSize⟩
  | none => none

def position? (a : Arena) (addr : Addr) : Option Nat :=
  a.slabs.findIdx? (·.page.contains addr)

def read (a : Arena) (addr : Addr) : UInt64 :=
  match a.position? addr with
  | some i => (a.slabs.getD i default).read addr
  | none => 0

def write (a : Arena) (addr : Addr) (w : UInt64) : Arena :=
  match a.position? addr with
  | some i => { a with slabs := a.slabs.modify i (·.write addr w) }
  | none => a

def stats (a : Arena) : ArenaStats where
  pages := a.slabs.size
  privateBytes := a.privateBytes
  blockCapacity := total (·.page.blockCount) a.slabs.toList
  liveBlocks := a.liveBlocks
  liveBytes := a.liveBytes

end Arena

end MarkSweep
