import MarkSweep.Slab
import MarkSweep.TypeLayout.Enumeration

set_option autoImplicit false

/-!
# The search for a free block

A slab looks for a free block a word at a time. It masks the bits below its cursor and takes the
lowest clear bit of the rest; if there is none, the cursor goes to the next word. The last word may
have clear bits behind the last block. Coming upon one of these, the search is over too.
-/

namespace MarkSweep

def Word.clearBits (w : UInt64) (i : Nat) : UInt64 :=
  ~~~w &&& (0xFFFFFFFFFFFFFFFF <<< UInt64.ofNat i)

namespace Slab

inductive Look
  | found (index : Nat)
  | exhausted
  | further (cursor : Nat)
deriving DecidableEq, Repr

def look (s : Slab) (cursor : Nat) : Look :=
  if cursor < s.page.blockCount then
    let free := Word.clearBits (s.allocated.word (cursor / 64)) (cursor % 64)
    if free = 0 then .further ((cursor / 64 + 1) * 64)
    else
      let index := cursor / 64 * 64 + Word.trailingZeros free
      if index < s.page.blockCount then .found index else .exhausted
  else .exhausted

/-- Looks at word after word from a cursor. Returns nothing if the search is not over after so many
looks. -/
def search? (s : Slab) : Nat → Nat → Option (Option Nat)
  | 0, _ => none
  | looks + 1, cursor =>
    match s.look cursor with
    | .found index => some (some index)
    | .exhausted => some none
    | .further cursor => s.search? looks cursor

end Slab

end MarkSweep
