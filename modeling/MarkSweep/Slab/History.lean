import MarkSweep.Slab

set_option autoImplicit false

namespace MarkSweep

def Slab.remark (s : Slab) (marks : Bitmap) : Slab := { s with marks }

inductive Slab.Reachable (page : Page) : Slab → Prop
  | fresh : Slab.Reachable page (Slab.fresh page)
  | takeFree {s : Slab} (before : Slab.Reachable page s) : Slab.Reachable page s.takeFree.2
  | remark {s : Slab} (marks : Bitmap) (before : Slab.Reachable page s)
      (size : marks.size = page.blockCount) : Slab.Reachable page (s.remark marks)
  | sweep {s : Slab} (before : Slab.Reachable page s) : Slab.Reachable page s.sweep

end MarkSweep
