import MarkSweep.Arena.Allocate
import MarkSweep.Arena.Sweep
import MarkSweep.Mark

set_option autoImplicit false

namespace MarkSweep

/-- The arenas that allocation, marking and sweeping lead to from an empty one. An allocation may
fail, and a mark is set on an allocated block. -/
inductive Arena.Reachable (hugeThreshold heapLimit : Nat) : Arena → Prop
  | new : Arena.Reachable hugeThreshold heapLimit (Arena.new hugeThreshold heapLimit)
  | allocate {a : Arena} {host : Host} (size : Nat) (kind : BlockKind)
      (before : Arena.Reachable hugeThreshold heapLimit a) (aligned : host.IsAligned) :
      Arena.Reachable hugeThreshold heapLimit (a.allocate host size kind).2
  | clearMarks {a : Arena} (before : Arena.Reachable hugeThreshold heapLimit a) :
      Arena.Reachable hugeThreshold heapLimit a.clearMarks
  | mark {a : Arena} {p : Page} {index : Nat} (before : Arena.Reachable hugeThreshold heapLimit a)
      (allocated : a.isAllocated p index = true) :
      Arena.Reachable hugeThreshold heapLimit (a.testAndMark p index).2
  | sweep {a : Arena} (before : Arena.Reachable hugeThreshold heapLimit a) :
      Arena.Reachable hugeThreshold heapLimit a.sweep.2

end MarkSweep
