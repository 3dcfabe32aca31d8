import MarkSweep.Directory

set_option autoImplicit false

namespace MarkSweep

/-- Whether a page covers whole granules, at least one, below the end of the address space. -/
def Page.IsWhole (p : Page) : Prop :=
  granule ∣ p.base ∧ granule ∣ p.size ∧ 0 < p.size ∧ p.limit < UInt64.size

/-- Whether two granules fall into one slot. -/
def Directory.Aliases (g h : Addr) : Prop :=
  Directory.tableIndex g = Directory.tableIndex h ∧ Directory.slotIndex g = Directory.slotIndex h

inductive Directory.Reachable : Directory → Prop
  | empty : Directory.Reachable {}
  | install {d : Directory} {p : Page} (grant : Nat → Bool) (before : Directory.Reachable d)
      (whole : p.IsWhole) : Directory.Reachable (d.install grant p).2
  | remove {d : Directory} {p : Page} (before : Directory.Reachable d) (whole : p.IsWhole) :
      Directory.Reachable (d.remove p)

end MarkSweep
