import MarkSweep.Proofs.ArenaLedger

set_option autoImplicit false

namespace MarkSweep

namespace Arena

def HasFreeBlock (a : Arena) (c : SizeClass) : Prop :=
  ∃ s ∈ a.slabs, s.page.kind = .small c.kind ∧ s.page.blockSize = c.blockSize ∧
    ∃ k < s.page.blockCount, s.isAllocated k = false

def Affords (a : Arena) (bytes : Nat) : Prop :=
  a.heapLimit = 0 ∨ a.privateBytes + bytes ≤ a.heapLimit

/-- Whether an arena has room for a request: a free block of its class if it is small, or else the
page that it needs. -/
def Fits (a : Arena) (size : Nat) (kind : BlockKind) : Prop :=
  size ≤ a.hugeThreshold ∧ a.HasFreeBlock (SizeClass.of kind size) ∨ a.Affords (a.pageBytes size)

instance (a : Arena) (c : SizeClass) : Decidable (a.HasFreeBlock c) :=
  inferInstanceAs (Decidable (∃ s ∈ a.slabs, s.page.kind = .small c.kind ∧
    s.page.blockSize = c.blockSize ∧ ∃ k < s.page.blockCount, s.isAllocated k = false))

instance (a : Arena) (bytes : Nat) : Decidable (a.Affords bytes) :=
  inferInstanceAs (Decidable (_ ∨ _))

instance (a : Arena) (size : Nat) (kind : BlockKind) : Decidable (a.Fits size kind) :=
  inferInstanceAs (Decidable (_ ∧ _ ∨ _))

def WithinLimit (a : Arena) : Prop := a.heapLimit ≠ 0 → a.privateBytes ≤ a.heapLimit

end Arena

/-- Whether the directory of an arena takes a page over a range: no slot of it is that of another
page, and the host has memory for the tables that are not there yet. -/
def Host.Clears (host : Host) (a : Arena) (base : Addr) (bytes : Nat) : Prop :=
  ∀ k, k * granule < bytes →
    (∀ s ∈ a.slabs, ∀ g ∈ s.page.granules, ¬ Directory.Aliases g (base + k * granule)) ∧
    ((∃ s ∈ a.slabs, ∃ g ∈ s.page.granules,
        Directory.tableIndex g = Directory.tableIndex (base + k * granule)) ∨
      host.table 0 (Directory.tableIndex (base + k * granule)) = true)

def Host.Grants (host : Host) (a : Arena) (bytes : Nat) : Prop :=
  ∃ base, host.region a bytes 0 = some base ∧ host.Clears a base bytes

namespace Arena

theorem roomyIn_eq_nil_iff {a : Arena} (tallied : a.Tallied) (c : SizeClass) :
    a.roomyIn c = [] ↔ ¬ a.HasFreeBlock c := by
  have free : ∀ s ∈ a.slabs,
      (s.isFull = false ↔ ∃ k < s.page.blockCount, s.isAllocated k = false) := fun s hs =>
    Slab.isFull_eq_false_iff (tallied.sound.slab s hs).counted (tallied.balanced.tidy s hs)
  rw [List.eq_nil_iff_forall_not_mem, ← not_exists, not_iff_not]
  constructor
  · rintro ⟨i, listed⟩
    obtain ⟨s, found, of_kind, of_class, room⟩ := (tallied.stocked.roomy c i).1 listed
    have hs := Array.mem_of_getElem? found
    exact ⟨s, hs, of_kind, of_class, (free s hs).1 room⟩
  · rintro ⟨s, hs, of_kind, of_class, room⟩
    obtain ⟨i, found⟩ := Array.getElem?_of_mem hs
    exact ⟨i, (tallied.stocked.roomy c i).2 ⟨s, found, of_kind, of_class, (free s hs).2 room⟩⟩

section Mapping

variable {a : Arena} {host : Host} {size blockSize : Nat} {kind : PageKind}

theorem addPage_of_not_affords (over_limit : ¬ a.Affords size) :
    a.addPage host size kind blockSize = (.error (.outOfMemory size), a) := by
  unfold Affords at over_limit
  rw [addPage, if_pos (by omega)]

theorem install_of_clears (tracks : a.directory.Tracks a.pages) {page : Page}
    (whole : page.IsWhole) (fresh : page ∉ a.pages) (clears : host.Clears a page.base page.size) :
    ∃ d, a.directory.install (host.table 0) page = (.ok (), d) := by
  obtain ⟨mem, -⟩ | ⟨q, ⟨memq, -, g, hg, h, hh, same⟩, -⟩ | ⟨-, -, -, d, done, -⟩ |
    ⟨-, -, ⟨g, hg, unused, refused⟩, -⟩ := tracks.install_cases whole (host.table 0)
  · exact absurd mem fresh
  · obtain ⟨k, bound, rfl⟩ := Page.mem_granules.1 hg
    obtain ⟨i, found⟩ := mem_pages.1 memq
    obtain ⟨s, there, rfl⟩ := exists_of_page?_eq_some found
    exact absurd same ((clears k bound).1 s (Array.mem_of_getElem? there) h hh)
  · exact ⟨d, done⟩
  · obtain ⟨k, bound, rfl⟩ := Page.mem_granules.1 hg
    obtain ⟨s, hs, h, hh, same⟩ | granted := (clears k bound).2
    · obtain ⟨i, found⟩ := Array.getElem?_of_mem hs
      have mem : s.page ∈ a.pages := mem_pages.2 ⟨i, page?_eq_some found⟩
      exact absurd (Directory.mem_tablesOf.2 ⟨s.page, mem, h, hh, same⟩) unused
    · simp [granted] at refused

theorem exists_addPage_of_affords (tallied : a.Tallied) (aligned : host.IsAligned) (kind : PageKind)
    (cuttable : Cuttable kind size blockSize) (affords : a.Affords size)
    (grants : host.Grants a size) :
    ∃ page d, page.IsCut ∧ page.size = size ∧ page.kind = kind ∧ page.blockSize = blockSize ∧
      a.addPage host size kind blockSize = (.ok a.slabs.size, a.mapPage page d) := by
  have tracks := tallied.balanced.tracks
  obtain ⟨base, offer, clears⟩ := grants
  have granted : ∃ i, (a.addPage host size kind blockSize).1 = .ok i := by
    obtain ⟨whole, positive, below⟩ := aligned a size 0 base offer
    have cut := isCut_of_cuttable cuttable whole positive below a.mapped
    have fresh : ({ id := a.mapped, base, size, kind, blockSize } : Page) ∉ a.pages := by
      intro mem
      obtain ⟨i, found⟩ := mem_pages.1 mem
      exact Nat.lt_irrefl _ (tallied.sound.numbered i _ found)
    obtain ⟨d, done⟩ := install_of_clears tracks cut.whole fresh clears
    have placed : place (host.region a size) host.table
        (fun base => ({ id := a.mapped, base, size, kind, blockSize } : Page))
        maxPlacementRetries a.directory =
          (.ok { id := a.mapped, base, size, kind, blockSize }, d) := by
      rw [place.eq_def]
      simp only [Nat.sub_self, offer, done]
    unfold Affords at affords
    rw [addPage, if_neg (by omega)]
    simp only [placed]
    exact ⟨_, rfl⟩
  cases adding : a.addPage host size kind blockSize with
  | mk result b =>
    obtain ⟨i, granted⟩ := granted
    rw [adding] at granted
    obtain ⟨page, d, provides, bytes, of_kind, of_class, rfl, rfl⟩ | ⟨e, -, rfl, -⟩ :=
      addPage_cases tallied.filed.serving.free.first tracks aligned cuttable adding
    · exact ⟨page, d, provides.cut, bytes, of_kind, of_class, rfl⟩
    · contradiction

end Mapping

section Requests

variable {a : Arena} {host : Host} {size : Nat} {kind : BlockKind}

theorem exists_allocate_of_fits (tallied : a.Tallied) (aligned : host.IsAligned)
    (positive : 0 < size) (bounded : size ≤ maxRequest) (grants : host.Grants a (a.pageBytes size))
    (fits : a.Fits size kind) : ∃ b a', a.allocate host size kind = (.ok b, a') := by
  rw [allocate, if_neg (by omega)]
  unfold Fits at fits
  unfold pageBytes at fits grants
  split
  · next large =>
    rw [if_pos large] at fits grants
    have affords := fits.resolve_left fun small => Nat.not_le_of_lt large small.1
    obtain ⟨page, d, -, -, of_kind, -, added⟩ :=
      exists_addPage_of_affords tallied aligned (.huge kind) (cuttable_huge kind positive) affords
        grants
    obtain ⟨k, t, taken⟩ := exists_takeFree_huge of_kind
    rw [allocateHuge, added]
    simp only [takeFrom_eq (getElem?_slabs_mapPage a page d) taken]
    exact ⟨_, _, rfl⟩
  · next small =>
    rw [if_neg small] at fits grants
    have small := Nat.le_of_not_lt small
    rw [allocateSmall]
    cases listed : a.roomyIn (SizeClass.of kind size) with
    | cons i rest =>
      obtain ⟨s, found, -, -, room⟩ :=
        (tallied.stocked.roomy _ i).1 (listed ▸ List.mem_cons_self)
      obtain ⟨k, t, taken⟩ := Slab.exists_takeFree (slab_sound tallied.sound found).counted
        (tallied.balanced.tidy s (Array.mem_of_getElem? found)) room
      exact ⟨_, _, takeOrMap_cons_eq host Directory.capacity listed found taken⟩
    | nil =>
      have affords := fits.resolve_left fun room => (roomyIn_eq_nil_iff tallied _).1 listed room.2
      have cuttable : Cuttable (.small kind) granule (SizeClass.of kind size).blockSize :=
        cuttable_sizeClass kind size
      obtain ⟨page, d, cut, bytes, of_kind, of_class, added⟩ :=
        exists_addPage_of_affords tallied aligned (.small kind) cuttable affords grants
      obtain ⟨k, t, taken⟩ :=
        exists_takeFree_shared cut bytes of_kind of_class (size_le_granule tallied small)
      exact ⟨_, _, (takeOrMap_nil_eq Directory.capacity listed added).trans
        (takeOrMap_mapPage_eq (Directory.capacity - 1) taken)⟩

theorem allocate_of_not_fits (tallied : a.Tallied) (positive : 0 < size)
    (bounded : size ≤ maxRequest) (full : ¬ a.Fits size kind) :
    a.allocate host size kind = (.error (.outOfMemory (a.pageBytes size)), a) := by
  rw [Fits, not_or] at full
  obtain ⟨no_block, no_page⟩ := full
  rw [allocate, if_neg (by omega)]
  unfold pageBytes at no_page ⊢
  split
  · next large =>
    rw [if_pos large] at no_page
    rw [allocateHuge, addPage_of_not_affords no_page]
  · next small =>
    rw [if_neg small] at no_page
    have unlisted := (roomyIn_eq_nil_iff tallied (SizeClass.of kind size)).2 fun room =>
      no_block ⟨Nat.le_of_not_lt small, room⟩
    exact takeOrMap_eq_error Directory.capacity unlisted (addPage_of_not_affords no_page)

end Requests

/-- Whether one arena comes of another without a step beyond the limit. -/
structure KeepsLimit (a b : Arena) : Prop where
  limit : b.heapLimit = a.heapLimit
  within : a.WithinLimit → b.WithinLimit

section Limits

variable {a b : Arena} {host : Host}

theorem KeepsLimit.trans {c : Arena} (ab : a.KeepsLimit b) (bc : b.KeepsLimit c) :
    a.KeepsLimit c :=
  ⟨bc.limit.trans ab.limit, fun within => bc.within (ab.within within)⟩

theorem keepsLimit_of_le (limit : b.heapLimit = a.heapLimit)
    (less : b.privateBytes ≤ a.privateBytes) : a.KeepsLimit b where
  limit := limit
  within within := by
    intro limited
    rw [limit] at limited ⊢
    exact Nat.le_trans less (within limited)

theorem keepsLimit_refl (a : Arena) : a.KeepsLimit a := keepsLimit_of_le rfl (Nat.le_refl _)

theorem keepsLimit_addPage (a : Arena) (host : Host) (size : Nat) (kind : PageKind)
    (blockSize : Nat) : a.KeepsLimit (a.addPage host size kind blockSize).2 := by
  unfold addPage
  split
  · exact keepsLimit_refl a
  · next affords =>
    simp only
    split
    · exact keepsLimit_of_le rfl (Nat.le_refl _)
    · refine ⟨rfl, fun _ limited => ?_⟩
      change a.privateBytes + size ≤ a.heapLimit
      rw [not_and, Nat.not_lt] at affords
      exact affords limited

theorem keepsLimit_takeFrom (i : Nat) (a : Arena) : a.KeepsLimit (a.takeFrom i).2 := by
  unfold takeFrom
  split
  · exact keepsLimit_refl a
  · split <;> exact keepsLimit_of_le rfl (Nat.le_refl _)

theorem keepsLimit_takeRoomy (c : SizeClass) (is : List Nat) (a : Arena) :
    a.KeepsLimit (a.takeRoomy c is).2 := by
  induction is generalizing a with
  | nil => exact keepsLimit_refl a
  | cons i rest ih =>
    have taken := keepsLimit_takeFrom i a
    unfold takeRoomy
    split
    · next a₁ taking =>
      rw [taking] at taken
      have listed : a₁.KeepsLimit { a₁ with roomy := a₁.roomy.insert c rest } :=
        keepsLimit_of_le rfl (Nat.le_refl _)
      exact (taken.trans listed).trans (ih _)
    · next b a₁ taking =>
      rw [taking] at taken
      split
      · exact taken.trans (keepsLimit_of_le rfl (Nat.le_refl _))
      · exact taken

theorem keepsLimit_takeOrMap (host : Host) (c : SizeClass) (tries : Nat) (a : Arena) :
    a.KeepsLimit (a.takeOrMap host c tries).2 := by
  induction tries generalizing a with
  | zero => exact keepsLimit_refl a
  | succ tries ih =>
    have taken := keepsLimit_takeRoomy c (a.roomyIn c) a
    unfold takeOrMap
    split
    · next b a₁ taking =>
      rw [taking] at taken
      exact taken
    · next a₁ taking =>
      rw [taking] at taken
      have added := keepsLimit_addPage a₁ host granule (.small c.kind) c.blockSize
      split
      · next e a₂ adding =>
        rw [adding] at added
        exact taken.trans added
      · next i a₂ adding =>
        rw [adding] at added
        have listed : a₂.KeepsLimit { a₂ with roomy := a₂.roomy.insert c (i :: a₂.roomyIn c) } :=
          keepsLimit_of_le rfl (Nat.le_refl _)
        exact ((taken.trans added).trans listed).trans (ih _)

theorem keepsLimit_allocate (a : Arena) (host : Host) (size : Nat) (kind : BlockKind) :
    a.KeepsLimit (a.allocate host size kind).2 := by
  unfold allocate
  split
  · exact keepsLimit_refl a
  · split
    · have added := keepsLimit_addPage a host (roundUp (roundUp size minBlock) granule)
        (.huge kind) (roundUp size minBlock)
      unfold allocateHuge
      simp only
      split
      · next e a₁ adding =>
        rw [adding] at added
        exact added
      · next i a₁ adding =>
        rw [adding] at added
        have taken := keepsLimit_takeFrom i a₁
        split
        all_goals
          next taking =>
            rw [taking] at taken
            exact added.trans taken
    · exact keepsLimit_takeOrMap host _ _ a

theorem keepsLimit_write (a : Arena) (addr : Addr) (w : UInt64) :
    a.KeepsLimit (a.write addr w) := by
  unfold write
  split <;> exact keepsLimit_of_le rfl (Nat.le_refl _)

theorem keepsLimit_of_clearMarks_eq (same : b.clearMarks = a.clearMarks) : a.KeepsLimit b :=
  keepsLimit_of_le (congrArg (·.heapLimit) same)
    (Nat.le_of_eq (congrArg (·.privateBytes) same))

theorem keepsLimit_sweep (a : Arena) : a.KeepsLimit a.sweep.2 :=
  keepsLimit_of_le rfl (Nat.sub_le _ _)

end Limits

end Arena

end MarkSweep
