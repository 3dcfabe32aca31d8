import MarkSweep.Slab
import MarkSweep.TypeLayout.Enumeration

set_option autoImplicit false

namespace MarkSweep

def Bitmap.clearAt (b : Bitmap) (k : Nat) (bits : UInt64) : Bitmap :=
  { b with
    words := b.words.modify k (· &&& ~~~bits)
    words_size := by rw [Array.size_modify]; exact b.words_size }

namespace Slab

/-- The blocks of a word that a sweep would free. They are those in use, less each of them that turns
out to be marked. -/
def deadBits (s : Slab) (k : Nat) : UInt64 :=
  let inUse := s.allocated.word k
  (Word.setBits inUse).foldl
    (fun dead i => if s.marks.get (k * 64 + i) then Word.withoutBit dead i else dead) inUse

def zeroBlock (s : Slab) (index : Nat) : Slab :=
  { s with
    contents := s.contents.keep fun word =>
      !(index * s.page.blockSize ≤ word * wordBytes &&
        word * wordBytes < index * s.page.blockSize + s.page.blockSize) }

def zeroBlocks (k : Nat) (bits : List Nat) (swept : Slab × Nat) : Slab × Nat :=
  bits.foldl (fun (s, freed) i => (s.zeroBlock (k * 64 + i), freed + 1)) swept

def sweepWord (swept : Slab × Nat) (k : Nat) : Slab × Nat :=
  if swept.1.allocated.word k = 0 then swept
  else
    let dead := swept.1.deadBits k
    let (s, freed) := zeroBlocks k (Word.setBits dead) swept
    ({ s with allocated := s.allocated.clearAt k dead }, freed)

/-- Sweeps word after word, and says how many blocks and bytes were freed. -/
def sweepWords (s : Slab) : Slab × Nat × Nat :=
  let (t, freed) := (List.range s.allocated.words.size).foldl sweepWord (s, 0)
  ({ t with used := t.used - freed, cursor := 0 }, freed, freed * s.page.blockSize)

end Slab

end MarkSweep
