import MarkSweep.Heap

set_option autoImplicit false

/-!
# Retained blocks

Which allocated blocks a collection has to keep, said without marking: those that a root slot names,
those that a word of a thread points into, and those that a kept block refers to. Nothing here
consults the directory or the mark bits.
-/

namespace MarkSweep

def Block.Contains (b : Block) (addr : Addr) : Prop := b.addr ≤ addr ∧ addr < b.addr + b.size

def Slab.block (s : Slab) (index : Nat) : Block := ⟨s.page.blockAddr index, s.page.blockSize⟩

def Arena.Holds (a : Arena) (b : Block) : Prop :=
  ∃ s ∈ a.slabs, ∃ index, s.isAllocated index = true ∧ b = s.block index

def TypeLayout.IsReference (t : TypeLayout) (word : Nat) : Prop :=
  t.mapOffset ≤ word ∧ word - t.mapOffset < t.pointerMap.size ∧
    t.pointerMap.get (word - t.mapOffset) = true

/-- Whether a block of a slab refers to what a word says: some word of the block has this value,
and the kind of the block, or else its type, makes that word a reference. -/
inductive Slab.Refers (around : Surroundings) (s : Slab) (index : Nat) : UInt64 → Prop
  | raw {word : Nat} (kind : s.page.kind.contents = .raw)
      (inside : word < s.page.blockSize / wordBytes) :
      Slab.Refers around s index (s.read (s.page.blockAddr index + word * wordBytes))
  | typed {word : Nat} {layout : TypeLayout} (kind : s.page.kind.contents = .typed)
      (isSet : s.read (s.page.blockAddr index) ≠ 0)
      (named : around.layout? (s.read (s.page.blockAddr index)) = some layout)
      (flagged : layout.IsReference word) (inside : word < s.page.blockSize / wordBytes) :
      Slab.Refers around s index (s.read (s.page.blockAddr index + word * wordBytes))

/-- Whether a thread with a snapshot shows a word: in a whole word of its stack, in a saved register
or below the stack pointer. -/
inductive ThreadRecord.Shows (around : Surroundings) (r : ThreadRecord) : UInt64 → Prop
  | stack {addr : Addr} (captured : r.snapshot.isCaptured = true) (aligned : wordBytes ∣ addr)
      (low : r.scanStart ≤ addr) (high : addr + wordBytes ≤ r.stackTop) :
      ThreadRecord.Shows around r (around.word addr)
  | saved {w : UInt64} (captured : r.snapshot.isCaptured = true) (shown : w ∈ r.snapshot.words) :
      ThreadRecord.Shows around r w

/-- The blocks that roots and threads keep alive, directly or through other blocks. -/
inductive Heap.Retained (around : Surroundings) (h : Heap) : Block → Prop
  | root {slot : RootSlot} {b : Block} (held : h.arena.Holds b) (registered : slot ∈ h.roots.slots)
      (named : (h.slotValue around slot).toNat = b.addr) : Heap.Retained around h b
  | thread {r : ThreadRecord} {w : UInt64} {b : Block} (held : h.arena.Holds b)
      (registered : r ∈ h.threads.active) (shown : r.Shows around w)
      (inside : b.Contains w.toNat) : Heap.Retained around h b
  | edge {s : Slab} {index : Nat} {w : UInt64} {b : Block} (owned : s ∈ h.arena.slabs)
      (allocated : s.isAllocated index = true) (before : Heap.Retained around h (s.block index))
      (refers : s.Refers around index w) (held : h.arena.Holds b) (named : w.toNat = b.addr) :
      Heap.Retained around h b

/-- Whether every typed block names a type that is known, or none yet. -/
def Heap.TypesKnown (around : Surroundings) (h : Heap) : Prop :=
  ∀ s ∈ h.arena.slabs, s.page.kind.contents = .typed → ∀ index, s.isAllocated index = true →
    s.read (s.page.blockAddr index) = 0 ∨
      (around.layout? (s.read (s.page.blockAddr index))).isSome = true

end MarkSweep
