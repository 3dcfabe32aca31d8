import MarkSweep.Thread

set_option autoImplicit false

namespace MarkSweep

abbrev RecordId := Nat

abbrev HandleId := Nat

inductive RootSlot
  | cell (addr : Addr)
  | handle (id : HandleId)
  | exception (record : RecordId)
  | handler (record : RecordId)
deriving DecidableEq, Repr

def RootSlot.atAddr? (addr : Addr) : Option RootSlot :=
  if addr = 0 then none else some (.cell addr)

/-- The registered slots. A slot that is registered twice is visited twice. -/
structure Roots where
  slots : Array RootSlot := #[]
deriving DecidableEq, Repr, Inhabited

namespace Roots

def size (r : Roots) : Nat := r.slots.size

def add (r : Roots) (slot : RootSlot) : Roots := ⟨r.slots.push slot⟩

/-- Removes the first occurrence of a slot and says whether there was one. The last slot moves into
the gap. -/
def remove (r : Roots) (slot : RootSlot) : Bool × Roots :=
  match r.slots.idxOf? slot with
  | none => (false, r)
  | some i =>
    match r.slots.back? with
    | none => (false, r)
    | some last => (true, ⟨(r.slots.setIfInBounds i last).pop⟩)

def erase (r : Roots) (slot : RootSlot) : Roots := (r.remove slot).2

end Roots

end MarkSweep
