import MarkSweep.Bitmap
import MarkSweep.Config

set_option autoImplicit false

namespace MarkSweep

inductive BlockKind
  | pointerFree
  | typed
  | raw
deriving DecidableEq, Repr, Inhabited

namespace BlockKind

def code : BlockKind → Nat
  | pointerFree => 0
  | typed => 1
  | raw => 2

def text : BlockKind → String
  | pointerFree => "NoPtr"
  | typed => "Dynamic"
  | raw => "Raw"

theorem code_inj {k k' : BlockKind} : k.code = k'.code ↔ k = k' := by
  cases k <;> cases k' <;> decide

end BlockKind

/-- How a page is cut: into blocks of one small size, or as one block of its own size. -/
inductive PageKind
  | small (contents : BlockKind)
  | huge (contents : BlockKind)
deriving DecidableEq, Repr, Inhabited

namespace PageKind

def contents : PageKind → BlockKind
  | small k => k
  | huge k => k

def isHuge : PageKind → Bool
  | small _ => false
  | huge _ => true

def code : PageKind → Nat
  | small k => k.code
  | huge _ => 3

def text : PageKind → String
  | small k => k.text
  | huge k => s!"Huge({k.text})"

end PageKind

/-- A range of addresses under one kind and one block size. The number tells apart two pages that
are otherwise described alike. -/
structure Page where
  id : Nat
  base : Addr
  size : Nat
  kind : PageKind
  blockSize : Nat
deriving DecidableEq, Repr, Inhabited

namespace Page

def limit (p : Page) : Addr := p.base + p.size

def contains (p : Page) (a : Addr) : Bool := p.base ≤ a && a < p.limit

def blockCount (p : Page) : Nat := if p.kind.isHuge then 1 else p.size / p.blockSize

def blockAddr (p : Page) (index : Nat) : Addr := p.base + index * p.blockSize

/-- The index of the block around an address of the page. In a page with a single block the
bytes behind the block belong to none. -/
def blockAround? (p : Page) (a : Addr) : Option Nat :=
  if a < p.base then none
  else if p.kind.isHuge then if a - p.base < p.blockSize then some 0 else none
  else some ((a - p.base) / p.blockSize)

def blockStarting? (p : Page) (a : Addr) : Option Nat :=
  if a < p.base then none
  else if p.kind.isHuge then if a = p.base then some 0 else none
  else if (a - p.base) % p.blockSize = 0 then some ((a - p.base) / p.blockSize) else none

def granules (p : Page) : List Addr :=
  (List.range (p.size / granule + if p.size % granule = 0 then 0 else 1)).map fun k =>
    p.base + k * granule

def text (p : Page) (marks : Bitmap) : String :=
  s!"Page \x7b base: {p.base}, size: {p.size}, kind: {p.kind.text}, " ++
    s!"block_size: {p.blockSize}, marks: {marks.text} \x7d"

theorem contains_iff {p : Page} {a : Addr} : p.contains a = true ↔ p.base ≤ a ∧ a < p.limit := by
  simp [contains]

theorem mem_granules {p : Page} {g : Addr} :
    g ∈ p.granules ↔ ∃ k, k * granule < p.size ∧ g = p.base + k * granule := by
  have key : ∀ k, k < (p.size / granule + if p.size % granule = 0 then 0 else 1) ↔
      k * granule < p.size := by
    intro k
    rw [granule]
    by_cases whole : p.size % 65536 = 0
    · rw [if_pos whole]
      omega
    · rw [if_neg whole]
      omega
  simp only [granules, List.mem_map, List.mem_range, key]
  exact exists_congr fun k => and_congr_right fun _ => eq_comm

end Page

end MarkSweep
