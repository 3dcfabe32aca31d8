import MarkSweep.Arena.History
import MarkSweep.Heap.Retained

set_option autoImplicit false

namespace MarkSweep

/-- The arenas that allocation, writing, marking and sweeping lead to from an empty one. A word is
written only if an allocated block holds it. -/
inductive Arena.Exercised (hugeThreshold heapLimit : Nat) : Arena → Prop
  | new : Arena.Exercised hugeThreshold heapLimit (Arena.new hugeThreshold heapLimit)
  | allocate {a : Arena} {host : Host} (size : Nat) (kind : BlockKind)
      (before : Arena.Exercised hugeThreshold heapLimit a) (aligned : host.IsAligned) :
      Arena.Exercised hugeThreshold heapLimit (a.allocate host size kind).2
  | write {a : Arena} {b : Block} {addr : Addr} (w : UInt64)
      (before : Arena.Exercised hugeThreshold heapLimit a) (held : a.Holds b)
      (inside : b.Contains addr) : Arena.Exercised hugeThreshold heapLimit (a.write addr w)
  | clearMarks {a : Arena} (before : Arena.Exercised hugeThreshold heapLimit a) :
      Arena.Exercised hugeThreshold heapLimit a.clearMarks
  | mark {a : Arena} {p : Page} {index : Nat} (before : Arena.Exercised hugeThreshold heapLimit a)
      (allocated : a.isAllocated p index = true) :
      Arena.Exercised hugeThreshold heapLimit (a.testAndMark p index).2
  | sweep {a : Arena} (before : Arena.Exercised hugeThreshold heapLimit a) :
      Arena.Exercised hugeThreshold heapLimit a.sweep.2

end MarkSweep
