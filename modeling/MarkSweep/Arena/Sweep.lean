import MarkSweep.Arena

set_option autoImplicit false

namespace MarkSweep

structure SweepReport where
  liveBlocks : Nat := 0
  liveBytes : Nat := 0
  freedBlocks : Nat := 0
  freedBytes : Nat := 0
  pagesReleased : Nat := 0
deriving DecidableEq, Repr, Inhabited

namespace Arena

def clearMarks (a : Arena) : Arena :=
  { a with slabs := a.slabs.map fun s => { s with marks := s.marks.clear } }

def indexByBase (slabs : List Slab) : Std.ExtTreeMap Addr Nat :=
  slabs.zipIdx.foldl (fun m s => m.insert s.1.page.base s.2) ∅

/-- The slabs of a row that have free blocks, by class, the last of the row in front. A page with
a single block never has room for another request. -/
def indexRoomy (slabs : List Slab) : Std.ExtTreeMap SizeClass (List Nat) :=
  slabs.zipIdx.foldl
    (fun m s =>
      if s.1.page.kind.isHuge || s.1.isFull then m
      else
        let c : SizeClass := ⟨s.1.page.kind.contents, s.1.page.blockSize⟩
        m.insert c (s.2 :: m.getD c []))
    ∅

def sweep (a : Arena) : SweepReport × Arena :=
  let freed := a.slabs.toList.map fun s => (s.dead.length, s.page.blockSize)
  let swept := a.slabs.toList.map Slab.sweep
  let kept := swept.filter fun s => 0 < s.used
  let released := swept.filter fun s => s.used = 0
  let report : SweepReport :=
    { liveBlocks := total (·.used) kept
      liveBytes := total (fun s => s.used * s.page.blockSize) kept
      freedBlocks := total (·.1) freed
      freedBytes := total (fun f => f.1 * f.2) freed
      pagesReleased := released.length }
  (report,
    { a with
      directory := released.foldl (fun d s => d.remove s.page) a.directory
      slabs := kept.toArray
      byBase := indexByBase kept
      roomy := indexRoomy kept
      privateBytes := a.privateBytes - total (·.page.size) released
      liveBlocks := report.liveBlocks
      liveBytes := report.liveBytes })

end Arena

end MarkSweep
