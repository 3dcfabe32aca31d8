import MarkSweep.Heap.History
import MarkSweep.Proofs.MarkBits
import MarkSweep.Slab.History

set_option autoImplicit false

namespace MarkSweep

def Host.IgnoresMarks (host : Host) : Prop :=
  ∀ (a : Arena) (size attempt : Nat),
    host.region a.clearMarks size attempt = host.region a size attempt

namespace Slab

variable (s : Slab)

def clearMarks : Slab := s.remark s.marks.clear

theorem takeFree_clearMarks : s.clearMarks.takeFree = s.takeFree.map id clearMarks := by
  have allocated : s.clearMarks.allocated = s.allocated := rfl
  have cursor : s.clearMarks.cursor = s.cursor := rfl
  unfold takeFree
  rw [allocated, cursor]
  cases s.allocated.clearFrom? s.cursor <;> rfl

end Slab

namespace Arena

variable (a : Arena) {host : Host}

theorem takeFrom_clearMarks (i : Nat) :
    a.clearMarks.takeFrom i = (a.takeFrom i).map id clearMarks := by
  unfold takeFrom
  rw [getElem?_slabs_clearMarks]
  cases a.slabs[i]? with
  | none => rfl
  | some s =>
    have taken := s.takeFree_clearMarks
    unfold Slab.clearMarks Slab.remark at taken
    simp only [Option.map_some, taken]
    cases s.takeFree with
    | mk result s' =>
      cases result <;> simp [clearMarks, Array.map_setIfInBounds]

theorem isFull_getD_clearMarks (i : Nat) :
    (a.clearMarks.slabs.getD i default).isFull = (a.slabs.getD i default).isFull := by
  rw [Array.getD_eq_getD_getElem?, Array.getD_eq_getD_getElem?, getElem?_slabs_clearMarks]
  cases a.slabs[i]? <;> rfl

theorem takeRoomy_clearMarks (c : SizeClass) (slabs : List Nat) :
    a.clearMarks.takeRoomy c slabs = (a.takeRoomy c slabs).map id clearMarks := by
  induction slabs generalizing a with
  | nil => rfl
  | cons i rest ih =>
    unfold takeRoomy
    rw [takeFrom_clearMarks]
    cases a.takeFrom i with
    | mk taken b =>
      cases taken with
      | none => exact ih { b with roomy := b.roomy.insert c rest }
      | some block =>
        have full := b.isFull_getD_clearMarks i
        simp only [Prod.map_apply, id_eq, full]
        split <;> rfl

theorem addPage_clearMarks (blind : host.IgnoresMarks) (size : Nat) (kind : PageKind)
    (blockSize : Nat) :
    a.clearMarks.addPage host size kind blockSize =
      (a.addPage host size kind blockSize).map id clearMarks := by
  have limit : a.clearMarks.heapLimit = a.heapLimit := rfl
  have bytes : a.clearMarks.privateBytes = a.privateBytes := rfl
  have mapped : a.clearMarks.mapped = a.mapped := rfl
  have directory : a.clearMarks.directory = a.directory := rfl
  have region : host.region a.clearMarks size = host.region a size :=
    funext fun attempt => blind a size attempt
  unfold addPage
  rw [limit, bytes, mapped, directory, region]
  split
  · rfl
  · simp only
    cases place (host.region a size) host.table
      (fun base => { id := a.mapped, base, size, kind, blockSize }) maxPlacementRetries
      a.directory with
    | mk result d =>
      cases result with
      | error e => rfl
      | ok page =>
        simp [clearMarks, Array.map_push, Slab.fresh, Bitmap.clear]

theorem takeOrMap_clearMarks (blind : host.IgnoresMarks) (c : SizeClass) (tries : Nat) :
    a.clearMarks.takeOrMap host c tries = (a.takeOrMap host c tries).map id clearMarks := by
  induction tries generalizing a with
  | zero => rfl
  | succ tries ih =>
    have roomy : a.clearMarks.roomyIn c = a.roomyIn c := rfl
    unfold takeOrMap
    rw [roomy, takeRoomy_clearMarks]
    cases a.takeRoomy c (a.roomyIn c) with
    | mk taken b =>
      cases taken with
      | some block => rfl
      | none =>
        simp only [Prod.map_apply, id_eq, addPage_clearMarks b blind]
        cases b.addPage host granule (.small c.kind) c.blockSize with
        | mk result d =>
          cases result with
          | error e => rfl
          | ok i => exact ih { d with roomy := d.roomy.insert c (i :: d.roomyIn c) }

theorem allocateHuge_clearMarks (blind : host.IgnoresMarks) (size : Nat) (kind : BlockKind) :
    a.clearMarks.allocateHuge host size kind =
      (a.allocateHuge host size kind).map id clearMarks := by
  unfold allocateHuge
  simp only [addPage_clearMarks a blind]
  cases a.addPage host (roundUp (roundUp size minBlock) granule) (.huge kind)
    (roundUp size minBlock) with
  | mk result b =>
    cases result with
    | error e => rfl
    | ok i =>
      simp only [Prod.map_apply, id_eq, takeFrom_clearMarks]
      cases b.takeFrom i with
      | mk taken d => cases taken <;> rfl

/-- An allocation does not see marks, and leaves them. -/
theorem allocate_clearMarks (blind : host.IgnoresMarks) (size : Nat) (kind : BlockKind) :
    a.clearMarks.allocate host size kind = (a.allocate host size kind).map id clearMarks := by
  have threshold : a.clearMarks.hugeThreshold = a.hugeThreshold := rfl
  unfold allocate
  rw [threshold]
  split
  · rfl
  · split
    · exact allocateHuge_clearMarks a blind size kind
    · exact takeOrMap_clearMarks a blind (SizeClass.of kind size) (Directory.capacity + 1)

theorem position?_clearMarks (x : Addr) : a.clearMarks.position? x = a.position? x := by
  unfold position? clearMarks
  rw [Array.findIdx?_map]
  rfl

theorem write_clearMarks (x : Addr) (w : UInt64) :
    a.clearMarks.write x w = (a.write x w).clearMarks := by
  unfold write
  rw [position?_clearMarks]
  cases a.position? x with
  | none => rfl
  | some i =>
    have slabs : a.clearMarks.slabs.modify i (·.write x w) =
        (a.slabs.modify i (·.write x w)).map Slab.clearMarks := by
      refine Array.ext_getElem? fun j => ?_
      rw [Array.getElem?_modify, getElem?_slabs_clearMarks, Array.getElem?_map,
        Array.getElem?_modify]
      split <;> cases a.slabs[j]? <;> rfl
    exact congrArg (fun slabs => { a with slabs }) slabs

theorem isAllocated_clearMarks (p : Page) (k : Nat) :
    a.clearMarks.isAllocated p k = a.isAllocated p k := by
  unfold isAllocated
  rw [slab?_clearMarks]
  cases a.slab? p <;> rfl

theorem isBlockStart_clearMarks (x : Addr) : a.clearMarks.isBlockStart x = a.isBlockStart x := by
  have directory : a.clearMarks.directory = a.directory := rfl
  have same : ∀ p, a.clearMarks.isAllocated p = a.isAllocated p :=
    fun p => funext (isAllocated_clearMarks a p)
  unfold isBlockStart blockId?
  simp only [directory, same]

theorem blockAround?_clearMarks (x : Addr) : a.clearMarks.blockAround? x = a.blockAround? x := by
  have directory : a.clearMarks.directory = a.directory := rfl
  have same : ∀ p, a.clearMarks.isAllocated p = a.isAllocated p :=
    fun p => funext (isAllocated_clearMarks a p)
  unfold blockAround? resolveInterior
  simp only [directory, same]

theorem stats_clearMarks : a.clearMarks.stats = a.stats := by
  simp [stats, clearMarks, total_map]

theorem pageRecords_clearMarks :
    (a.clearMarks.slabs.toList.mergeSort fun s t => s.page.base ≤ t.page.base).map (·.record) =
      (a.slabs.toList.mergeSort fun s t => s.page.base ≤ t.page.base).map (·.record) := by
  have slabs : a.clearMarks.slabs.toList = a.slabs.toList.map Slab.clearMarks := by
    simp [clearMarks, Slab.clearMarks, Slab.remark]
  have sorted := List.map_mergeSort (r := fun s t : Slab => decide (s.page.base ≤ t.page.base))
    (s := fun s t : Slab => decide (s.page.base ≤ t.page.base)) (f := Slab.clearMarks)
    (l := a.slabs.toList) fun _ _ _ _ => rfl
  rw [slabs, ← sorted, List.map_map]
  rfl

theorem typeWords_clearMarks :
    a.clearMarks.slabs.toList.flatMap (·.typeWords) = a.slabs.toList.flatMap (·.typeWords) := by
  simp only [clearMarks, Array.toList_map, List.flatMap_map]
  rfl

end Arena

end MarkSweep
