import MarkSweep.Arena.Writing
import MarkSweep.Proofs.HeapLogs

set_option autoImplicit false

namespace MarkSweep

namespace Arena

variable {a b : Arena} {hugeThreshold heapLimit : Nat}

theorem directory_write (a : Arena) (x : Addr) (w : UInt64) :
    (a.write x w).directory = a.directory := by
  unfold write
  split <;> rfl

theorem filed_of_exercised (used : Arena.Exercised hugeThreshold heapLimit a) : a.Filed := by
  induction used with
  | new => exact filed_new hugeThreshold heapLimit
  | allocate size kind before aligned ih => exact filed_allocate ih aligned rfl
  | write w before held inside ih => exact filed_write ih held inside w
  | @clearMarks a before ih => exact filed_congr (clearMarks_clearMarks a) ih
  | @mark a p index before allocated ih => exact filed_congr (clearMarks_testAndMark a p index) ih
  | sweep before ih => exact filed_sweep ih

theorem reachable_foldl_remove {d : Directory} (before : d.Reachable) (l : List Slab)
    (whole : ∀ s ∈ l, s.page.IsWhole) : (l.foldl (fun d s => d.remove s.page) d).Reachable := by
  induction l generalizing d with
  | nil => exact before
  | cons s l ih =>
    exact ih (before.remove (whole s List.mem_cons_self))
      fun t ht => whole t (List.mem_cons_of_mem s ht)

theorem directory_of_exercised (used : Arena.Exercised hugeThreshold heapLimit a) :
    a.directory.Reachable := by
  induction used with
  | new => exact .empty
  | allocate size kind before aligned ih =>
    exact reachable_directory_allocate (filed_of_exercised before) aligned rfl ih
  | @write a b addr w before held inside ih => exact (directory_write a addr w).symm ▸ ih
  | clearMarks before ih => exact ih
  | @mark a p index before allocated ih =>
    have same := congrArg (·.directory) (clearMarks_testAndMark a p index)
    exact same.symm ▸ ih
  | @sweep a before ih =>
    refine reachable_foldl_remove ih a.releasedSlabs fun t given => ?_
    obtain ⟨i, s, found, rfl, -⟩ := mem_releasedSlabs.1 given
    exact (slab_sound (filed_of_exercised before).sound found).cut.whole

theorem Reachable.exercised (reached : Arena.Reachable hugeThreshold heapLimit a) :
    Arena.Exercised hugeThreshold heapLimit a := by
  induction reached with
  | new => exact .new
  | allocate size kind before aligned ih => exact .allocate size kind ih aligned
  | clearMarks before ih => exact .clearMarks ih
  | mark before allocated ih => exact .mark ih allocated
  | sweep before ih => exact .sweep ih

end Arena

end MarkSweep
