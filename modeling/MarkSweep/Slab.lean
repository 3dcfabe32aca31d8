import MarkSweep.Page
import MarkSweep.Words

set_option autoImplicit false

namespace MarkSweep

structure Slab where
  page : Page
  allocated : Bitmap
  marks : Bitmap
  used : Nat := 0
  /-- No block below this index is free. -/
  cursor : Nat := 0
  contents : Words := .zero

namespace Slab

def fresh (page : Page) : Slab where
  page := page
  allocated := .empty page.blockCount
  marks := .empty page.blockCount

instance : Inhabited Slab := ⟨fresh default⟩

def isFull (s : Slab) : Bool := s.used == s.page.blockCount

def isAllocated (s : Slab) (index : Nat) : Bool :=
  index < s.page.blockCount && s.allocated.get index

def read (s : Slab) (a : Addr) : UInt64 := s.contents.get ((a - s.page.base) / wordBytes)

def write (s : Slab) (a : Addr) (w : UInt64) : Slab :=
  { s with contents := s.contents.set ((a - s.page.base) / wordBytes) w }

def takeFree (s : Slab) : Option Nat × Slab :=
  match s.allocated.clearFrom? s.cursor with
  | some index =>
    (some index,
      { s with allocated := s.allocated.set index, used := s.used + 1, cursor := index + 1 })
  | none => (none, { s with cursor := s.page.blockCount })

/-- Whether a sweep would free a block: it is in use and not marked. -/
def isDead (s : Slab) (index : Nat) : Bool := s.allocated.get index && !s.marks.get index

def dead (s : Slab) : List Nat := (List.range s.allocated.size).filter s.isDead

/-- The block around a word of the page. -/
def blockOfWord (s : Slab) (word : Nat) : Nat := word * wordBytes / s.page.blockSize

def sweep (s : Slab) : Slab :=
  { s with
    allocated := s.allocated.inter s.marks
    used := s.used - s.dead.length
    cursor := 0
    contents := s.contents.keep fun word => !s.isDead (s.blockOfWord word) }

theorem get_allocated_sweep (s : Slab) (i : Nat) :
    s.sweep.allocated.get i = (s.allocated.get i && s.marks.get i) := by
  simp [sweep, Bitmap.get_inter]

theorem get_contents_sweep (s : Slab) (word : Nat) :
    s.sweep.contents.get word =
      if s.isDead (s.blockOfWord word) then 0 else s.contents.get word := by
  simp only [sweep, Words.get_keep]
  cases s.isDead (s.blockOfWord word) <;> simp

end Slab

end MarkSweep
